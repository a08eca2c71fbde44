import Mathlib.Data.Finset.Prod
import Mathlib.Data.List.Infix
import Peg.Proofs.Derivation.Sound
import Peg.Proofs.Simulation.Grammar

/-!
The depth that a plain run allows is enough: what a grammar ends with at some
depth, it ends with at every greater one, and in `Rules.depth` already. Rules see
the ends of one text only, and a depth that brings none of these calls to an end
is followed by no depth that does.
-/
namespace Peg

open Grammar

/-- The first of two plain computations does not end, or both end in related ways. -/
inductive Outcome.Below {α β : Type} (R : α → β → Prop) : Outcome α → Outcome β → Prop
  | unfinished {y} : Below R .unfinished y
  | done {a b} (related : R a b) : Below R (.done a) (.done b)
  | fault {cause} : Below R (.fault cause) (.fault cause)

def extending : Simulation Outcome Outcome where
  Rel := Outcome.Below
  audible := False
  pure := .done
  bind := by
    intro _ _ _ _ _ _ x y _ _ below later
    cases below with
    | unfinished => exact .unfinished
    | done related => exact later _ _ related
    | fault => exact .fault
  imp := by
    intro _ _ _ _ x y weaker below
    cases below with
    | unfinished => exact .unfinished
    | done related => exact .done (weaker _ _ related)
    | fault => exact .fault
  note := fun _ => .done trivial
  within := fun _ related => related

theorem Outcome.Below.eq {input : Text} {x y : Outcome (Option Match)}
    (below : Below (Option.Rel (Match.Alike True input)) x y) (finished : x ≠ .unfinished) :
    y = x := by
  cases below with
  | unfinished => exact absurd rfl finished
  | fault => rfl
  | done related => rw [Match.Alike.option_eq related]

section

variable {whole : Text} {call call' : Text → Parser Outcome}

theorem Grammar.parser_below (calls : ∀ name, extending.Related True whole (call name) (call' name))
    (g : Grammar) : extending.Related True whole (g.parser call) (g.parser call') := by
  refine Simulation.same_grammar (fun act tree => ?_) calls g
  unfold Monitor.apply
  split
  · exact .done rfl
  · exact .fault

theorem Grammar.parser_congr (fair : ∀ name, extending.Related True whole (call name) (call name))
    (equal : ∀ name input, input <:+ whole → call' name input = call name input) (g : Grammar)
    {input : Text} (inside : input <:+ whole) : g.parser call' input = g.parser call input := by
  have up : extending.Related True whole (g.parser call) (g.parser call') :=
    g.parser_below fun name input inside => by
      rw [equal name input inside]
      exact fair name input inside
  have down : extending.Related True whole (g.parser call') (g.parser call) :=
    g.parser_below fun name input inside => by
      rw [equal name input inside]
      exact fair name input inside
  by_cases stuck : g.parser call input = .unfinished
  · by_contra differs
    have moved : g.parser call' input ≠ .unfinished := fun same => differs (same.trans stuck.symm)
    exact differs ((down input inside).eq moved).symm
  · exact (up input inside).eq stuck

end

namespace Rules

theorem calls_below (rules : Rules) (whole : Text) {depth more : Nat} (deep : depth ≤ more)
    (name : Text) : extending.Related True whole (rules.calls depth name) (rules.calls more name) := by
  induction depth generalizing more name with
  | zero => exact fun input _ => .unfinished
  | succ depth ih =>
    obtain ⟨more, rfl⟩ := Nat.exists_eq_add_one.mpr (Nat.zero_lt_of_lt deep)
    intro input inside
    cases known : rules.lookup name with
    | none =>
      rw [calls_unknown known, calls_unknown known]
      exact .done .none
    | some g =>
      rw [calls_known known, calls_known known]
      exact g.parser_below (ih (by omega)) input inside

theorem calls_eq (rules : Rules) {depth more : Nat} (deep : depth ≤ more) {name input : Text}
    (finished : rules.calls depth name input ≠ .unfinished) :
    rules.calls more name input = rules.calls depth name input :=
  (rules.calls_below input deep name input List.suffix_rfl).eq finished

/-- One more level of calls brings no further call on the ends of a text to an end. -/
def Settled (rules : Rules) (whole : Text) (depth : Nat) : Prop :=
  ∀ name input, input <:+ whole →
    rules.calls depth name input = .unfinished → rules.calls (depth + 1) name input = .unfinished

theorem Settled.calls_eq {rules : Rules} {whole : Text} {depth : Nat}
    (settled : rules.Settled whole depth) {more : Nat} (deep : depth ≤ more) (name : Text)
    {input : Text} (inside : input <:+ whole) :
    rules.calls more name input = rules.calls depth name input := by
  induction more, deep using Nat.le_induction generalizing name input with
  | base => rfl
  | succ more deep ih =>
    have next : rules.calls (more + 1) name input = rules.calls (depth + 1) name input := by
      cases known : rules.lookup name with
      | none => rw [calls_unknown known, calls_unknown known]
      | some g =>
        rw [calls_known known, calls_known known]
        exact g.parser_congr (fun name => rules.calls_below whole le_rfl name)
          (fun name input inside => ih name inside) inside
    by_cases stuck : rules.calls depth name input = .unfinished
    · rw [next, settled name input inside stuck, stuck]
    · rw [next, rules.calls_eq (Nat.le_succ depth) stuck]

open Classical in
noncomputable def pending (rules : Rules) (whole : Text) (depth : Nat) : Finset (Text × Text) :=
  {site ∈ (rules.map Prod.fst).toFinset ×ˢ whole.tails.toFinset |
    rules.calls depth site.1 site.2 = .unfinished}

theorem mem_pending {rules : Rules} {whole : Text} {depth : Nat} {name input : Text} :
    (name, input) ∈ rules.pending whole depth ↔
      (name ∈ rules.map Prod.fst ∧ input <:+ whole) ∧
        rules.calls depth name input = .unfinished := by
  simp [pending, List.mem_tails]

theorem card_pending_le (rules : Rules) (whole : Text) (depth : Nat) :
    (rules.pending whole depth).card ≤ rules.length * (whole.length + 1) := by
  classical
  calc (rules.pending whole depth).card
      ≤ ((rules.map Prod.fst).toFinset ×ˢ whole.tails.toFinset).card := Finset.card_filter_le _ _
    _ = (rules.map Prod.fst).toFinset.card * whole.tails.toFinset.card := Finset.card_product _ _
    _ ≤ (rules.map Prod.fst).length * whole.tails.length :=
      Nat.mul_le_mul (List.toFinset_card_le _) (List.toFinset_card_le _)
    _ = rules.length * (whole.length + 1) := by rw [List.length_map, List.length_tails]

theorem card_pending_lt {rules : Rules} {whole : Text} {depth : Nat}
    (unsettled : ¬ rules.Settled whole (depth + 1)) :
    (rules.pending whole (depth + 1 + 1)).card < (rules.pending whole (depth + 1)).card := by
  simp only [Settled, not_forall] at unsettled
  obtain ⟨name, input, inside, stuck, moved⟩ := unsettled
  have named : name ∈ rules.map Prod.fst := by
    by_contra absent
    rw [calls_unknown (lookup_eq_none absent)] at stuck
    cases stuck
  apply Finset.card_lt_card
  rw [Finset.ssubset_iff_of_subset]
  · exact ⟨(name, input), mem_pending.mpr ⟨⟨named, inside⟩, stuck⟩,
      fun member => moved (mem_pending.mp member).2⟩
  · intro ⟨name, input⟩ member
    obtain ⟨site, later⟩ := mem_pending.mp member
    refine mem_pending.mpr ⟨site, ?_⟩
    by_contra finished
    rw [rules.calls_eq (Nat.le_succ _) finished] at later
    exact finished later

theorem exists_settled (rules : Rules) (whole : Text) :
    ∃ depth ≤ rules.depth whole, rules.Settled whole depth := by
  -- every depth that does not settle brings a pending call to an end
  by_contra unsettled
  have shrinks : ∀ steps ≤ rules.length * (whole.length + 1) + 1,
      (rules.pending whole (steps + 1)).card + steps ≤ rules.length * (whole.length + 1) := by
    intro steps
    induction steps with
    | zero => exact fun _ => rules.card_pending_le whole 1
    | succ steps ih =>
      intro bound
      have moving : ¬ rules.Settled whole (steps + 1) :=
        fun settled => unsettled ⟨steps + 1, by unfold depth; omega, settled⟩
      have fewer := card_pending_lt moving
      have := ih (by omega)
      omega
  have := shrinks _ le_rfl
  omega

end Rules

namespace Grammar

/-- Depths from `Rules.depth` on make no difference. -/
theorem parser_eq_parse (rules : Rules) (g : Grammar) {input : Text} {depth : Nat}
    (deep : rules.depth input ≤ depth) :
    g.parser (rules.calls depth) input = g.parse rules input := by
  obtain ⟨least, bound, settled⟩ := rules.exists_settled input
  have fair : ∀ name, extending.Related True input (rules.calls least name) (rules.calls least name) :=
    fun name => rules.calls_below input le_rfl name
  calc g.parser (rules.calls depth) input
      = g.parser (rules.calls least) input :=
        g.parser_congr fair (fun name _ inside => settled.calls_eq (bound.trans deep) name inside)
          List.suffix_rfl
    _ = g.parser (rules.calls (rules.depth input)) input :=
        (g.parser_congr fair (fun name _ inside => settled.calls_eq bound name inside)
          List.suffix_rfl).symm

theorem parse_eq_of_parser_eq {rules : Rules} {g : Grammar} {input : Text} {depth : Nat}
    {outcome : Outcome (Option Match)} (ran : g.parser (rules.calls depth) input = outcome)
    (finished : outcome ≠ .unfinished) : g.parse rules input = outcome := by
  subst ran
  have more := g.parser_below (fun name =>
    rules.calls_below input (Nat.le_max_left depth (rules.depth input)) name)
  rw [← parser_eq_parse rules g (Nat.le_max_right depth (rules.depth input))]
  exact (more input List.suffix_rfl).eq finished

end Grammar
end Peg
