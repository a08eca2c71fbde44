import Peg.Grammar.Describe
import Peg.Trace.Run

/-!
A session: parsers that are built once and used in a row of steps on a text that
they work off.
-/
namespace Peg.Session

/-- What a step asks for: to parse what is left and go on behind the match, to
do so only if nothing remains, to parse without moving, to compare two parses of
the same text, to print a grammar, or to start over. -/
inductive Command where
  | apply (g : Grammar)
  | complete (g : Grammar)
  | peek (g : Grammar)
  | twice (g : Grammar)
  | describe (g : Grammar)
  | reset

structure Step where
  command : Command
  level : Option Trace.Level

inductive Answer where
  | result (outcome : Outcome (Option Match))
  | same (outcome : Outcome Bool)
  | description (tree : Text)
  | nothing

structure Reply where
  answer : Answer
  cursor : Text
  trace : Option (List Trace.Event)

structure State where
  cursor : Text
  memory : Trace.State

def State.start (input : Text) : State := ⟨input, .fresh⟩

def compare (rules : Rules) (g : Grammar) (input : Text) : Trace.Run Bool := do
  let first ← g.trace rules input
  let second ← g.trace rules input
  pure (first == second)

def advance (cursor : Text) : Outcome (Option Match) → Text
  | .done (some found) => found.rest
  | _ => cursor

def step (rules : Rules) (input : Text) (s : Step) (state : State) : Reply × State :=
  let level := s.level.getD .off
  let reply (answer : Answer) (cursor : Text) (events : List Trace.Event)
      (memory : Trace.State) : Reply × State :=
    (⟨answer, cursor, s.level.map fun _ => events⟩, ⟨cursor, memory⟩)
  match s.command with
  | .apply g =>
    let ending := g.trace rules state.cursor level state.memory
    reply (.result ending.outcome) (advance state.cursor ending.outcome) ending.events ending.state
  | .complete g =>
    let ending := g.traceComplete rules state.cursor level state.memory
    reply (.result ending.outcome) (advance state.cursor ending.outcome) ending.events ending.state
  | .peek g =>
    let ending := g.trace rules state.cursor level state.memory
    reply (.result ending.outcome) state.cursor ending.events ending.state
  | .twice g =>
    let ending := compare rules g state.cursor level state.memory
    reply (.same ending.outcome) state.cursor ending.events ending.state
  | .describe g => reply (.description (g.describe [])) state.cursor [] state.memory
  | .reset => reply .nothing input [] state.memory

def run (rules : Rules) (input : Text) : List Step → State → List Reply
  | [], _ => []
  | s :: steps, state =>
    let (reply, next) := step rules input s state
    reply :: run rules input steps next

end Peg.Session
