import Peg.Grammar.Parse
import Peg.Trace.Event

/-!
Runs that keep their reports. A run carries two things along: the label in
force, and the rules met so far, each kept from its first use on. Events are
kept up to the point where a run breaks off.
-/
namespace Peg.Trace

/-- How much is recorded. Parsers report at the finest level only. -/
inductive Level where
  | off
  | debug
  | trace
  deriving DecidableEq

/-- What lives on between parsers: the label in force, and the rules built. -/
structure State where
  label : Text
  built : Rules

def State.fresh : State := ⟨[], []⟩

structure Ending (α : Type) where
  outcome : Outcome α
  events : List Event
  state : State

def Run (α : Type) := Level → State → Ending α

namespace Run

variable {α β : Type}

def bind (first : Run α) (next : α → Run β) : Run β := fun level state =>
  let done := first level state
  match done.outcome with
  | .done value =>
    let later := next value level done.state
    { later with events := done.events ++ later.events }
  | .fault cause => ⟨.fault cause, done.events, done.state⟩
  | .breach => ⟨.breach, done.events, done.state⟩
  | .unfinished => ⟨.unfinished, done.events, done.state⟩

instance : Monad Run where
  pure value := fun _ state => ⟨.done value, [], state⟩
  bind := bind

instance : Monitor Run where
  note report := fun level state =>
    ⟨.done (), if level = .trace then [⟨state.label, report⟩] else [], state⟩
  within label run := fun level state =>
    let done := run level { state with label }
    { done with state := { done.state with label := state.label } }
  fault cause := fun _ state => ⟨.fault cause, [], state⟩
  breach := fun _ state => ⟨.breach, [], state⟩
  unfinished := fun _ state => ⟨.unfinished, [], state⟩

/-- The rule of a name. It is taken from the rules once, and kept. -/
def find (rules : Rules) (name : Text) : Run (Option Grammar) := fun _ state =>
  match state.built.lookup name with
  | some g => ⟨.done (some g), [], state⟩
  | none =>
    match rules.lookup name with
    | some g => ⟨.done (some g), [], { state with built := (name, g) :: state.built }⟩
    | none => ⟨.done none, [], state⟩

end Run
end Trace

namespace Grammar

def trace (rules : Rules) (g : Grammar) (input : Text) : Trace.Run (Option Match) :=
  g.parser (call (Trace.Run.find rules) (rules.depth input)) input

def traceComplete (rules : Rules) (g : Grammar) (input : Text) : Trace.Run (Option Match) :=
  Parser.complete (g.trace rules) input

end Grammar
end Peg
