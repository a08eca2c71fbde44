import Mathlib.Data.List.Basic
import Peg.Trace.Event

/-!
Sequences of events in which all that is entered also ends, and what is entered later ends
earlier. In such a sequence every entry has one end that belongs to it.
-/
namespace Peg

namespace Report

/-- Whether a report is one of two, at the start and at the end of an operation. The empty
token and the operations left out report once. -/
def IsPaired (report : Report) : Prop :=
  match report.operation with
  | .literal => report.detail ≠ .words []
  | .whitespace | .endOfInput | .zeroWidth | .capture | .action | .complete => False
  | _ => True

structure Opens (report : Report) : Prop where
  paired : report.IsPaired
  entered : report.verdict = .entered

/-- The end of what another report began, on the same input. -/
structure Closes (closing opening : Report) : Prop where
  operation : closing.operation = opening.operation
  input : closing.input = opening.input
  paired : closing.IsPaired
  ended : closing.verdict ≠ .entered

theorem Opens.failed_closes {opening : Report} (opens : opening.Opens) :
    Closes { opening with verdict := .failed } opening where
  operation := rfl
  input := rfl
  paired := opens.paired
  ended := nofun

theorem Closes.not_opens {closing opening : Report} (closes : closing.Closes opening) :
    ¬ closing.Opens := fun opens => closes.ended opens.entered

end Report

namespace Trace

structure Event.Closes (closing opening : Event) : Prop where
  label : closing.label = opening.label
  report : closing.report.Closes opening.report

/-- Events that stand alone, and pairs of an entry and its end with more such events
between them. -/
inductive Balanced : List Event → Prop
  | nil : Balanced []
  | alone {event later} (lone : ¬ event.report.IsPaired) (after : Balanced later) :
      Balanced (event :: later)
  | pair {opening closing inside later} (opens : opening.report.Opens)
      (closes : closing.Closes opening) (between : Balanced inside) (after : Balanced later) :
      Balanced (opening :: (inside ++ closing :: later))

/-- The front of a balanced sequence that was broken off. -/
def Cut (events : List Event) : Prop := ∃ later, Balanced (events ++ later)

variable {events before after inside inside' middle later later' : List Event}
variable {opening opening' closing closing' : Event}

theorem Balanced.append (first : Balanced events) (second : Balanced later) :
    Balanced (events ++ later) := by
  induction first with
  | nil => exact second
  | alone lone _ ih => exact .alone lone ih
  | pair opens closes between _ _ ih =>
    rw [List.cons_append, List.append_assoc, List.cons_append]
    exact .pair opens closes between ih

theorem Balanced.at_once (opens : opening.report.Opens) (closes : closing.Closes opening) :
    Balanced [opening, closing] :=
  @pair opening closing [] [] opens closes .nil .nil

theorem Balanced.cons_append (opens : opening.report.Opens) (first : Balanced middle)
    (whole : Balanced (opening :: later)) : Balanced (opening :: (middle ++ later)) := by
  cases whole with
  | alone lone _ => exact absurd opens.paired lone
  | pair _ closes between after =>
    rw [← List.append_assoc]
    exact .pair opens closes (first.append between) after

theorem Balanced.cut (balanced : Balanced events) : Cut events :=
  ⟨[], by rwa [List.append_nil]⟩

theorem Balanced.append_cut (first : Balanced events) (second : Cut later) : Cut (events ++ later) := by
  obtain ⟨more, balanced⟩ := second
  refine ⟨more, ?_⟩
  rw [List.append_assoc]
  exact first.append balanced

theorem Cut.cons_append (opens : opening.report.Opens) (first : Balanced middle)
    (whole : Cut (opening :: later)) : Cut (opening :: (middle ++ later)) := by
  obtain ⟨more, balanced⟩ := whole
  refine ⟨more, ?_⟩
  rw [List.cons_append, List.append_assoc]
  exact .cons_append opens first balanced

theorem Cut.cons (opens : opening.report.Opens) (inner : Cut inside) : Cut (opening :: inside) := by
  obtain ⟨more, balanced⟩ := inner
  let closing : Event := ⟨opening.label, { opening.report with verdict := .failed }⟩
  refine ⟨more ++ [closing], ?_⟩
  rw [List.cons_append, ← List.append_assoc]
  exact .pair opens ⟨rfl, opens.failed_closes⟩ balanced .nil

theorem Balanced.head_ends_nothing (balanced : Balanced (closing :: later)) :
    ¬ closing.Closes opening := by
  intro closes
  cases balanced with
  | alone lone _ => exact lone closes.report.paired
  | pair opens _ _ _ => exact closes.report.not_opens opens

theorem Balanced.inside_unique (first : Balanced inside) (second : Balanced inside')
    (closes : closing.Closes opening) (closes' : closing'.Closes opening')
    (same : inside ++ closing :: later = inside' ++ closing' :: later') : inside = inside' := by
  induction first generalizing inside' opening opening' closing closing' later later' with
  | nil =>
    cases inside' with
    | nil => rfl
    | cons =>
      obtain ⟨rfl, -⟩ := List.cons.inj same
      exact absurd closes second.head_ends_nothing
  | alone lone after ih =>
    cases second with
    | nil =>
      obtain ⟨rfl, -⟩ := List.cons.inj same
      exact absurd closes' (Balanced.alone lone after).head_ends_nothing
    | alone _ after' =>
      obtain ⟨rfl, rest⟩ := List.cons.inj same
      rw [ih after' closes closes' rest]
    | pair opens _ _ _ =>
      obtain ⟨rfl, -⟩ := List.cons.inj same
      exact absurd opens.paired lone
  | pair opens ends between after ihBetween ihAfter =>
    cases second with
    | nil =>
      obtain ⟨rfl, -⟩ := List.cons.inj same
      exact absurd closes' (Balanced.pair opens ends between after).head_ends_nothing
    | alone lone _ =>
      obtain ⟨rfl, -⟩ := List.cons.inj same
      exact absurd opens.paired lone
    | pair _ ends' between' after' =>
      rw [List.cons_append, List.cons_append, List.append_assoc, List.append_assoc] at same
      obtain ⟨rfl, rest⟩ := List.cons.inj same
      obtain rfl := ihBetween between' ends ends' rest
      obtain ⟨rfl, behind⟩ := List.cons.inj (List.append_cancel_left rest)
      rw [ihAfter after' closes closes' behind]

theorem Balanced.exists_end (balanced : Balanced events) (opens : opening.report.Opens)
    (split : events = before ++ opening :: after) :
    ∃ inside closing later, after = inside ++ closing :: later ∧ Balanced inside ∧
      closing.Closes opening := by
  induction balanced generalizing before after with
  | nil => exact absurd split.symm (List.append_ne_nil_of_right_ne_nil _ nofun)
  | alone lone _ ih =>
    cases before with
    | nil =>
      obtain ⟨rfl, -⟩ := List.cons.inj split
      exact absurd opens.paired lone
    | cons => exact ih (List.cons.inj split).2
  | @pair first closing inside later _ closes between _ ihBetween ihAfter =>
    cases before with
    | nil =>
      obtain ⟨rfl, rfl⟩ := List.cons.inj split
      exact ⟨inside, closing, later, rfl, between, closes⟩
    | cons _ before =>
      obtain ⟨skipped, -, rest⟩ | ⟨left, rest, rest'⟩ :=
        List.append_eq_append_iff.mp (List.cons.inj split).2
      · cases skipped with
        | nil =>
          obtain ⟨rfl, -⟩ := List.cons.inj rest
          exact absurd opens closes.report.not_opens
        | cons => exact ihAfter (List.cons.inj rest).2
      · cases left with
        | nil =>
          obtain ⟨rfl, -⟩ := List.cons.inj rest'
          exact absurd opens closes.report.not_opens
        | cons =>
          obtain ⟨rfl, rfl⟩ := List.cons.inj rest'
          obtain ⟨within, ending, more, rfl, balanced, ends⟩ := ihBetween rest
          exact ⟨within, ending, more ++ closing :: later, List.append_assoc .., balanced, ends⟩

/-- Every entry has one end, and what stands between the two is balanced. -/
theorem Balanced.matched (balanced : Balanced events) (opens : opening.report.Opens)
    (split : events = before ++ opening :: after) :
    ∃! inside, Balanced inside ∧
      ∃ closing later, after = inside ++ closing :: later ∧ closing.Closes opening := by
  obtain ⟨inside, closing, later, split', between, closes⟩ := balanced.exists_end opens split
  refine ⟨inside, ⟨between, closing, later, split', closes⟩, ?_⟩
  rintro other ⟨between', closing', later', split'', closes'⟩
  exact between'.inside_unique between closes' closes (split''.symm.trans split')

end Trace
end Peg
