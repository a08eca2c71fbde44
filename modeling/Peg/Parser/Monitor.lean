import Peg.Match
import Peg.Outcome
import Peg.Trace.Report

/-!
What a parser may do besides looking at its input. The combinators are written
once against this interface; a plain run answers it by ignoring reports, a
traced run by keeping them.
-/
namespace Peg

class Monitor (m : Type → Type) extends Monad m where
  /-- Takes note of a report. -/
  note : Report → m Unit
  /-- Runs a computation under the given label, and puts the old one back
  however that computation ends. -/
  within : {α : Type} → Text → m α → m α
  /-- Breaks off because an action did. -/
  fault : {α : Type} → Fault → m α
  /-- Breaks off because a rest is no end of its input. -/
  breach : {α : Type} → m α
  /-- Breaks off because rules call each other without end. -/
  unfinished : {α : Type} → m α

abbrev Parser (m : Type → Type) := Text → m (Option Match)

namespace Monitor

variable {m : Type → Type} [Monitor m]

def refuse (operation : Operation) (detail : Detail) (input : Text) : m (Option Match) := do
  note ⟨operation, detail, input, .failed⟩
  pure none

def consumed (input rest : Text) : m Text :=
  match input.before? rest with
  | some front => pure front
  | none => breach

def apply (act : Action) (tree : Option Tree) : m (Option Tree) :=
  match act tree with
  | .ok new => pure new
  | .error cause => fault cause

/-- A plain run pays no attention to reports and labels. -/
instance : Monitor Outcome where
  note _ := .done ()
  within _ run := run
  fault := .fault
  breach := .breach
  unfinished := .unfinished

end Monitor
end Peg
