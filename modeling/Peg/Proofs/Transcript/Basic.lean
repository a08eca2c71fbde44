import Peg.Trace.Run

/-!
What a run reports, as a tree. The reports made under a label stand inside a scope of its
name, so that the label of a report is read off its place and nothing has to be put back.
A transcript depends on no state and on no level.
-/
namespace Peg

open Trace

inductive Transcript.Part where
  | report (made : Report)
  | scope (name : Text) (parts : List Part)

namespace Transcript.Part

mutual

/-- The events of a part, each under the name of the innermost scope around it; outside
every scope that is `label`. -/
def events (label : Text) : Part → List Event
  | report made => [⟨label, made⟩]
  | scope name parts => eventsOf name parts

def eventsOf (label : Text) : List Part → List Event
  | [] => []
  | part :: parts => part.events label ++ eventsOf label parts

end

def reportsOf (parts : List Part) : List Report := (eventsOf [] parts).map (·.report)

variable {label : Text} {parts more : List Part}

@[simp] theorem eventsOf_scope (name : Text) (parts : List Part) :
    eventsOf label [scope name parts] = eventsOf name parts := List.append_nil _

@[simp] theorem eventsOf_append (parts more : List Part) :
    eventsOf label (parts ++ more) = eventsOf label parts ++ eventsOf label more := by
  induction parts with
  | nil => rfl
  | cons part parts ih => rw [List.cons_append, eventsOf, eventsOf, ih, List.append_assoc]

theorem eventsOf_reports (label : Text) (parts : List Part) :
    (eventsOf label parts).map (·.report) = reportsOf parts := by
  induction parts with
  | nil => rfl
  | cons part parts ih =>
    rw [reportsOf, eventsOf, eventsOf, List.map_append, List.map_append, ih, reportsOf]
    cases part <;> rfl

theorem reportsOf_append (parts more : List Part) :
    reportsOf (parts ++ more) = reportsOf parts ++ reportsOf more := by
  simp only [reportsOf, eventsOf_append, List.map_append]

theorem reportsOf_scope (name : Text) (parts : List Part) :
    reportsOf [scope name parts] = reportsOf parts := by
  rw [reportsOf, eventsOf_scope, eventsOf_reports]

end Transcript.Part

/-- How a computation ends, and what it reported until then. -/
structure Transcript (α : Type) where
  outcome : Outcome α
  parts : List Transcript.Part

namespace Transcript

variable {α β : Type}

def bind (first : Transcript α) (next : α → Transcript β) : Transcript β :=
  match first.outcome with
  | .done value => ⟨(next value).outcome, first.parts ++ (next value).parts⟩
  | .fault cause => ⟨.fault cause, first.parts⟩
  | .breach => ⟨.breach, first.parts⟩
  | .unfinished => ⟨.unfinished, first.parts⟩

instance : Monad Transcript where
  pure value := ⟨.done value, []⟩
  bind := bind

instance : Monitor Transcript where
  note made := ⟨.done (), [.report made]⟩
  within name run := ⟨run.outcome, [.scope name run.parts]⟩
  fault cause := ⟨.fault cause, []⟩
  breach := ⟨.breach, []⟩
  unfinished := ⟨.unfinished, []⟩

def events (transcript : Transcript α) (label : Text) : List Event :=
  Part.eventsOf label transcript.parts

theorem events_within (name : Text) (x : Transcript α) (label : Text) :
    (Monitor.within name x : Transcript α).events label = x.events name := Part.eventsOf_scope ..

theorem bind_of_done {x : Transcript α} {value : α} (ended : x.outcome = .done value)
    (next : α → Transcript β) :
    (x >>= next) = ⟨(next value).outcome, x.parts ++ (next value).parts⟩ := by
  show bind x next = _
  simp only [bind, ended]

end Transcript

namespace Grammar

def transcript (rules : Rules) (g : Grammar) (input : Text) : Transcript (Option Match) :=
  g.parser (call (fun name => pure (rules.lookup name)) (rules.depth input)) input

def transcriptComplete (rules : Rules) (g : Grammar) (input : Text) : Transcript (Option Match) :=
  Parser.complete (g.transcript rules) input

end Grammar
end Peg
