import Mathlib.Data.Set.Finite.List
import Mathlib.Logic.Relation
import Mathlib.Order.WellFoundedSet
import Peg.Proofs.Derivation.Consumption

/-!
Which grammars may match without consuming, and which rules a grammar may enter
before it has consumed anything. Both are read off the grammar, on the safe side:
what does match the empty text is found to, and so is every rule that is entered
where its caller started. Rules none of which can enter itself that way are left
only finitely deep.
-/
namespace Peg

/-- Whether a grammar may match without consuming, by the look of it. -/
inductive MayBeEmpty (rules : Rules) : Grammar → Prop
  | literal : MayBeEmpty rules (.literal [])
  | whitespace : MayBeEmpty rules .whitespace
  | endOfInput : MayBeEmpty rules .endOfInput
  | sequence {first others} (every : ∀ g ∈ first :: others, MayBeEmpty rules g) :
      MayBeEmpty rules (.sequence first others)
  | choice {first others g} (candidate : g ∈ first :: others) (empty : MayBeEmpty rules g) :
      MayBeEmpty rules (.choice first others)
  | many (inner) : MayBeEmpty rules (.many inner)
  | sepBy (value separator) : MayBeEmpty rules (.sepBy value separator)
  | capture {inner} (empty : MayBeEmpty rules inner) : MayBeEmpty rules (.capture inner)
  | action {inner} (act) (empty : MayBeEmpty rules inner) : MayBeEmpty rules (.action inner act)
  | optional (inner) : MayBeEmpty rules (.optional inner)
  | label {inner} (name) (empty : MayBeEmpty rules inner) : MayBeEmpty rules (.label name inner)
  | rule {name g} (known : rules.lookup name = some g) (empty : MayBeEmpty rules g) :
      MayBeEmpty rules (.rule name)
  | leaf {parser : Leaf} (empty : parser.mayBeEmpty = true) : MayBeEmpty rules (.leaf parser)
  | wrapped {inner} (shown) (empty : MayBeEmpty rules inner) :
      MayBeEmpty rules (.wrapped shown inner)

mutual

/-- The rules that a grammar may enter before it has consumed anything. -/
inductive Enters (rules : Rules) : Grammar → Text → Prop
  | sequence {first others name} (part : EntersRow rules (first :: others) name) :
      Enters rules (.sequence first others) name
  | choice {first others g name} (candidate : g ∈ first :: others) (enters : Enters rules g name) :
      Enters rules (.choice first others) name
  | many {inner name} (enters : Enters rules inner name) : Enters rules (.many inner) name
  | many1 {inner name} (enters : Enters rules inner name) : Enters rules (.many1 inner) name
  | value {value separator name} (enters : Enters rules value name) :
      Enters rules (.sepBy value separator) name
  | separator {value separator name} (empty : MayBeEmpty rules value)
      (enters : Enters rules separator name) : Enters rules (.sepBy value separator) name
  | capture {inner name} (enters : Enters rules inner name) : Enters rules (.capture inner) name
  | action {inner act name} (enters : Enters rules inner name) :
      Enters rules (.action inner act) name
  | optional {inner name} (enters : Enters rules inner name) : Enters rules (.optional inner) name
  | label {shown inner name} (enters : Enters rules inner name) :
      Enters rules (.label shown inner) name
  | rule (name) : Enters rules (.rule name) name
  | wrapped {shown inner name} (enters : Enters rules inner name) :
      Enters rules (.wrapped shown inner) name

inductive EntersRow (rules : Rules) : List Grammar → Text → Prop
  | head {g gs name} (enters : Enters rules g name) : EntersRow rules (g :: gs) name
  | tail {g gs name} (empty : MayBeEmpty rules g) (enters : EntersRow rules gs name) :
      EntersRow rules (g :: gs) name

end

def LeftCalls (rules : Rules) (name called : Text) : Prop :=
  ∃ g, rules.lookup name = some g ∧ Enters rules g called

/-- No rule can enter itself, by way of others or directly, before it has consumed anything. -/
def Rules.NotLeftRecursive (rules : Rules) : Prop :=
  ∀ name, ¬ Relation.TransGen (LeftCalls rules) name name

namespace Rules

theorem notLeftRecursive_of_rank {rules : Rules} (rank : Text → Nat)
    (falls : ∀ name called, LeftCalls rules name called → rank called < rank name) :
    rules.NotLeftRecursive := by
  have lower : ∀ {name called}, Relation.TransGen (LeftCalls rules) name called →
      rank called < rank name := by
    intro name called reached
    induction reached with
    | single call => exact falls _ _ call
    | tail _ call ih => exact (falls _ _ call).trans ih
  exact fun name around => lt_irrefl _ (lower around)

theorem NotLeftRecursive.induction {rules : Rules} (finite : rules.NotLeftRecursive)
    {P : Text → Prop} (step : ∀ name, (∀ called, LeftCalls rules name called → P called) → P name)
    (name : Text) : P name := by
  have order : IsStrictOrder Text (Function.swap (Relation.TransGen (LeftCalls rules))) :=
    { irrefl := finite, trans := fun _ _ _ first second => second.trans first }
  have named : {name | name ∈ rules.map Prod.fst}.WellFoundedOn
      (Function.swap (Relation.TransGen (LeftCalls rules))) :=
    (List.finite_toSet _).wellFoundedOn
  -- names without a rule enter nothing, so that finitely many are left to descend through
  have unnamed : ∀ name ∉ rules.map Prod.fst, P name := by
    intro name absent
    refine step name fun called call => ?_
    obtain ⟨g, known, -⟩ := call
    rw [lookup_eq_none absent] at known
    cases known
  by_cases member : name ∈ rules.map Prod.fst
  · refine named.induction member ?_
    intro name _ ih
    refine step name fun called call => ?_
    by_cases next : called ∈ rules.map Prod.fst
    · exact ih called next (.single call)
    · exact unnamed called next
  · exact unnamed name member

end Rules

mutual

theorem Derives.mayBeEmpty {rules : Rules} {g : Grammar} {input : Text}
    {outcome : Outcome (Option Match)} (derived : Derives rules g input outcome)
    {found : Match} (same : outcome = .done (some found)) (empty : found.parsed = []) :
    MayBeEmpty rules g := by
  match derived with
  | .tokenFails .. | .charFails .. | .charAtEnd .. | .endOfInputFails .. | .sequenceFails ..
  | .sequenceFaults .. | .manyFaults .. | .many1Fails .. | .many1Faults .. | .sepByFaults ..
  | .sepByPairFaults .. | .captureFails .. | .captureFaults .. | .actionFails ..
  | .actionFaults .. | .actionInnerFaults .. | .optionalFaults .. | .unknownRule .. => cases same
  | .emptyToken _ => exact .literal
  | .whitespace .. => exact .whitespace
  | .endOfInput => exact .endOfInput
  | .manyNone _ | .many _ => exact .many _
  | .sepByNone _ | .sepBy _ _ => exact .sepBy _ _
  | .optional _ | .optionalNone _ => exact .optional _
  | .token _ _ nonempty =>
    cases same
    exact absurd empty nonempty
  | .char .. =>
    cases same
    cases empty
  | .leaf parser input =>
    have ran : parser.run input = some found := by injection same
    refine .leaf ?_
    by_contra never
    exact parser.parsed_ne_nil (Bool.eq_false_iff.mpr never) ran empty
  | .sequence parts =>
    cases same
    exact .sequence (parts.mayBeEmpty rfl empty)
  | .choice candidates =>
    obtain ⟨g, candidate, may⟩ := candidates.mayBeEmpty same empty
    exact .choice candidate may
  | .many1 rounds =>
    cases same
    match rounds with
    | .more _ nonempty _ => exact absurd (List.append_eq_nil_iff.mp empty).1 nonempty
  | .capture inside =>
    cases same
    exact .capture (inside.mayBeEmpty rfl empty)
  | .action inside _ =>
    cases same
    exact .action _ (inside.mayBeEmpty rfl empty)
  | .label inside => exact .label _ (inside.mayBeEmpty same empty)
  | .wrapped inside => exact .wrapped _ (inside.mayBeEmpty same empty)
  | .rule known body => exact .rule known (body.mayBeEmpty same empty)

theorem DerivesRow.mayBeEmpty {rules : Rules} {gs : List Grammar} {input : Text}
    {outcome : Outcome (Option (List Match))} (derived : DerivesRow rules gs input outcome)
    {row : List Match} (same : outcome = .done (some row))
    (empty : row.flatMap (·.parsed) = []) : ∀ g ∈ gs, MayBeEmpty rules g := by
  match derived with
  | .headFails .. | .headFaults .. | .tailFails .. | .tailFaults .. => cases same
  | .nil _ => exact nofun
  | .cons head tail =>
    cases same
    obtain ⟨first, later⟩ := List.append_eq_nil_iff.mp empty
    exact List.forall_mem_cons.mpr ⟨head.mayBeEmpty rfl first, tail.mayBeEmpty rfl later⟩

theorem DerivesChoice.mayBeEmpty {rules : Rules} {gs : List Grammar} {input : Text}
    {outcome : Outcome (Option Match)} (derived : DerivesChoice rules gs input outcome)
    {found : Match} (same : outcome = .done (some found)) (empty : found.parsed = []) :
    ∃ g ∈ gs, MayBeEmpty rules g := by
  match derived with
  | .nil .. | .hereFaults .. => cases same
  | .here head => exact ⟨_, List.mem_cons_self, head.mayBeEmpty same empty⟩
  | .later _ tail =>
    obtain ⟨g, candidate, may⟩ := tail.mayBeEmpty same empty
    exact ⟨g, List.mem_cons_of_mem _ candidate, may⟩

end

end Peg
