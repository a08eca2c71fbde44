import Peg.Proofs.Derivation.Sound
import Peg.Proofs.Simulation.Grammar

/-!
Actions have no say in what is recognized. Two grammars of one shape, whatever
their actions make of the trees, consume the same text of every input as long as
no action cuts a parse off. A capture hides the trees below it: where none of the
actions stands outside one, the trees are the same as well.
-/
namespace Peg

open Grammar

/-- An action that never cuts a parse off. -/
def Action.IsTotal (act : Action) : Prop := ∀ tree, ∃ new, act tree = .ok new

theorem Action.total_isTotal (f : Option Tree → Option Tree) : (total f).IsTotal :=
  fun tree => ⟨f tree, rfl⟩

/-- Neither computation ends, or both have values, which are related. -/
inductive Outcome.Agree {α β : Type} (R : α → β → Prop) : Outcome α → Outcome β → Prop
  | unfinished : Agree R .unfinished .unfinished
  | done {a b} (related : R a b) : Agree R (.done a) (.done b)

def agreeing : Simulation Outcome Outcome where
  Rel := Outcome.Agree
  audible := False
  pure := .done
  bind := by
    intro _ _ _ _ _ _ x y _ _ agree later
    cases agree with
    | unfinished => exact .unfinished
    | done related => exact later _ _ related
  imp := by
    intro _ _ _ _ x y weaker agree
    cases agree with
    | unfinished => exact .unfinished
    | done related => exact .done (weaker _ _ related)
  note := fun _ => .done trivial
  within := fun _ related => related

/-- Two parses that come to one end but for their trees, which are the same if `exact`. -/
def Outcome.SameEnd (exact : Prop) (x y : Outcome (Option Match)) : Prop :=
  (x = .unfinished ∧ y = .unfinished) ∨ (x = .done none ∧ y = .done none) ∨
    ∃ parsed rest tree tree', x = .done (some ⟨parsed, rest, tree⟩) ∧
      y = .done (some ⟨parsed, rest, tree'⟩) ∧ (exact → tree' = tree)

theorem Outcome.Agree.sameEnd {exact : Prop} {input : Text} {x y : Outcome (Option Match)}
    (agree : Agree (Option.Rel (Match.Alike exact input)) x y) : SameEnd exact x y := by
  cases agree with
  | unfinished => exact .inl ⟨rfl, rfl⟩
  | done related =>
    cases related with
    | none => exact .inr (.inl ⟨rfl, rfl⟩)
    | @some found other alike =>
      obtain ⟨parsed, rest, tree⟩ := found
      obtain ⟨parsed', rest', tree'⟩ := other
      obtain rfl : parsed' = parsed := alike.parsed
      obtain rfl : rest' = rest := alike.rest
      exact .inr (.inr ⟨parsed', rest', tree, tree', rfl, rfl, alike.tree⟩)

theorem Grammar.SameRules.depth {swap : Action → Action → Prop} {rules rules' : Rules}
    (same : SameRules swap rules rules') (input : Text) :
    rules'.depth input = rules.depth input := by
  have size : rules.length = rules'.length := List.Forall₂.length_eq same
  rw [Rules.depth, Rules.depth, size]

namespace Grammar

variable {rules rules' : Rules} {g g' : Grammar}

theorem agree (same : SameShape (fun act act' => act.IsTotal ∧ act'.IsTotal) g g')
    (sameRules : SameRules (fun act act' => act.IsTotal ∧ act'.IsTotal) rules rules')
    (input : Text) :
    Outcome.Agree (Option.Rel (Match.Alike (¬ BareAction rules g) input))
      (g.parse rules input) (g'.parse rules' input) := by
  have acts : ∀ act act', act.IsTotal ∧ act'.IsTotal →
      agreeing.Carries False False act act' := by
    rintro act act' ⟨left, right⟩
    refine .of_apply id fun tree tree' _ => ?_
    obtain ⟨new, made⟩ := left tree
    obtain ⟨new', made'⟩ := right tree'
    unfold Monitor.apply
    rw [made, made']
    exact .done False.elim
  have calls : ∀ name, agreeing.Related (False ∨ ¬ BareAction rules (.rule name)) input
      (rules.calls (rules.depth input) name) (rules'.calls (rules.depth input) name) :=
    Simulation.calls id acts .unfinished (fun name => .done (sameRules.lookup name)) _
  have related : agreeing.Related (False ∨ ¬ BareAction rules g) input
      (g.parser (rules.calls (rules.depth input))) (g'.parser (rules'.calls (rules.depth input))) :=
    Simulation.grammar id calls acts same
  rw [parse_eq, parse_eq, sameRules.depth input]
  exact related.weaken Or.inr input List.suffix_rfl

theorem parse_ne_fault (total : SameShape (fun act act' => act.IsTotal ∧ act'.IsTotal) g g)
    (totalRules : SameRules (fun act act' => act.IsTotal ∧ act'.IsTotal) rules rules)
    (input : Text) (cause : Fault) : g.parse rules input ≠ .fault cause := by
  intro same
  have both := agree total totalRules input
  rw [same] at both
  cases both

/-- Actions that never cut a parse off may be swapped for any others that never do, in a
grammar or in any part of it. -/
theorem actions_keep_recognition
    (same : SameShape (fun act act' => act.IsTotal ∧ act'.IsTotal) g g')
    (sameRules : SameRules (fun act act' => act.IsTotal ∧ act'.IsTotal) rules rules')
    (input : Text) :
    Outcome.SameEnd (¬ BareAction rules g) (g.parse rules input) (g'.parse rules' input) :=
  (agree same sameRules input).sameEnd

theorem numbers_keep_recognition :
    Outcome.SameEnd
      (¬ BareAction [("n".toList, (capture (many1 digit)).action .readInt)]
        (sepBy (rule "n".toList) (token ",").silent))
      ((sepBy (rule "n".toList) (token ",").silent).parse
        [("n".toList, (capture (many1 digit)).action .readInt)] "1,22x".toList)
      ((sepBy (rule "n".toList) ((token ",").action .keep)).parse
        [("n".toList, (capture (many1 digit)).action .drop)] "1,22x".toList) := by
  have total (f : Option Tree → Option Tree) := Action.total_isTotal f
  apply actions_keep_recognition
  · exact .sepBy (.rule _) (.action (.literal _) ⟨total _, total _⟩)
  · refine .cons ⟨rfl, ?_⟩ .nil
    exact .action (.capture (.many1 (.char _))) ⟨total _, total _⟩

end Grammar
end Peg
