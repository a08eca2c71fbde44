import Peg.Proofs.Derivation.Basic

/-!
Derived matches consume a prefix of their input, and a derivation ends in a
match, in no match or in a fault. Matches in a row are consecutive, so that the
row as a whole consumes a prefix as well.
-/
namespace Peg

def Match.Consecutive (input : Text) : List Match → Prop
  | [] => True
  | found :: row => found.parsed ++ found.rest = input ∧ Consecutive found.rest row

theorem Match.Consecutive.splits {input : Text} {row : List Match}
    (consecutive : Consecutive input row) :
    row.flatMap (·.parsed) ++ after input row = input := by
  induction row generalizing input with
  | nil => rfl
  | cons found row ih =>
    obtain ⟨first, later⟩ := consecutive
    rw [List.flatMap_cons, List.append_assoc]
    exact (congrArg (found.parsed ++ ·) (ih later)).trans first

namespace Outcome

/-- A value with a property, or a fault: neither a broken contract nor rules
that call each other without end. -/
def Ends {α : Type} (good : α → Prop) : Outcome α → Prop
  | done value => good value
  | fault _ => True
  | breach | unfinished => False

theorem Ends.elim {α : Type} {good : α → Prop} {outcome : Outcome α} (ended : outcome.Ends good) :
    (∃ value, outcome = done value ∧ good value) ∨ ∃ cause, outcome = fault cause := by
  cases outcome with
  | done value => exact .inl ⟨value, rfl, ended⟩
  | fault cause => exact .inr ⟨cause, rfl⟩
  | breach | unfinished => exact False.elim ended

def Splits (input : Text) : Outcome (Option Match) → Prop :=
  Ends fun result => ∀ found ∈ result, found.parsed ++ found.rest = input

theorem splits_matched {input : Text} {found : Match} :
    Splits input (.done (some found)) ↔ found.parsed ++ found.rest = input := by
  simp [Splits, Ends]

theorem splits_failed (input : Text) : Splits input (.done none) := by
  simp [Splits, Ends]

end Outcome

open Outcome

mutual

theorem Derives.splits {rules : Rules} {g : Grammar} {input : Text}
    {outcome : Outcome (Option Match)} (derived : Derives rules g input outcome) :
    outcome.Splits input := by
  match derived with
  | .emptyToken .. | .endOfInput | .manyNone .. | .sepByNone .. | .optionalNone ..
  | .token .. | .char .. | .whitespace .. => exact splits_matched.mpr rfl
  | .tokenFails .. | .charFails .. | .charAtEnd .. | .endOfInputFails .. | .sequenceFails ..
  | .many1Fails .. | .captureFails .. | .actionFails .. | .unknownRule .. =>
    exact splits_failed _
  | .sequenceFaults .. | .manyFaults .. | .many1Faults .. | .sepByFaults ..
  | .sepByPairFaults .. | .captureFaults .. | .actionFaults .. | .actionInnerFaults ..
  | .optionalFaults .. => trivial
  | .leaf parser _ => exact fun found same => parser.parsed_append_rest same
  | .sequence parts => exact splits_matched.mpr (parts.consecutive _ rfl).splits
  | .choice candidates => exact candidates.splits
  | .many rounds | .many1 rounds => exact splits_matched.mpr rounds.consecutive.splits
  | .sepBy first later =>
    exact splits_matched.mpr
      (Match.Consecutive.splits ⟨splits_matched.mp first.splits, later.consecutive⟩)
  | .capture inside | .action inside _ =>
    have split := splits_matched.mp inside.splits
    exact splits_matched.mpr split
  | .optional inside | .label inside | .wrapped inside => exact inside.splits
  | .rule known body => exact body.splits

theorem DerivesRow.consecutive {rules : Rules} {gs : List Grammar} {input : Text}
    {outcome : Outcome (Option (List Match))} (derived : DerivesRow rules gs input outcome) :
    outcome.Ends fun result => ∀ row ∈ result, Match.Consecutive input row := by
  match derived with
  | .nil _ =>
    intro row same
    cases same
    trivial
  | .headFails _ | .tailFails _ _ => exact fun row same => nomatch same
  | .headFaults _ | .tailFaults _ _ => trivial
  | .cons head tail =>
    intro row same
    cases same
    exact ⟨splits_matched.mp head.splits, tail.consecutive _ rfl⟩

theorem DerivesChoice.splits {rules : Rules} {gs : List Grammar} {input : Text}
    {outcome : Outcome (Option Match)} (derived : DerivesChoice rules gs input outcome) :
    outcome.Splits input := by
  match derived with
  | .nil _ => exact splits_failed _
  | .here head => exact head.splits
  | .hereFaults _ => trivial
  | .later _ tail => exact tail.splits

theorem DerivesRepetition.consecutive {rules : Rules} {g : Grammar} {input : Text}
    {outcome : Outcome (List Match)} (derived : DerivesRepetition rules g input outcome) :
    outcome.Ends (Match.Consecutive input) := by
  match derived with
  | .fails _ | .empty _ _ | .faults _ | .moreFaults _ _ _ => trivial
  | .more head _ tail => exact ⟨splits_matched.mp head.splits, tail.consecutive⟩

theorem DerivesPairs.consecutive {rules : Rules} {value separator : Grammar} {input : Text}
    {outcome : Outcome (List Match)} (derived : DerivesPairs rules value separator input outcome) :
    outcome.Ends (Match.Consecutive input) := by
  match derived with
  | .separatorFails _ | .separatorFaults _ | .valueFails _ _ | .valueFaults _ _
  | .bothEmpty _ _ _ | .moreFaults _ _ _ _ => trivial
  | .more gap item _ tail =>
    exact ⟨splits_matched.mp gap.splits, splits_matched.mp item.splits, tail.consecutive⟩

end

theorem Derives.ne_unfinished {rules : Rules} {g : Grammar} {input : Text}
    {outcome : Outcome (Option Match)} (derived : Derives rules g input outcome) :
    outcome ≠ .unfinished := by
  intro stuck
  have ended := derived.splits
  rw [stuck] at ended
  exact ended

theorem Derives.ne_breach {rules : Rules} {g : Grammar} {input : Text}
    {outcome : Outcome (Option Match)} (derived : Derives rules g input outcome) :
    outcome ≠ .breach := by
  intro broken
  have ended := derived.splits
  rw [broken] at ended
  exact ended

end Peg
