import Peg.Proofs.Simulation.Grammar
import Peg.Proofs.Transcript.Basic

/-!
A traced run does what its transcript says. Whatever rules are built already, it ends as
the transcript does, records the events of the transcript under the label it starts with,
and puts that label back; a plain run ends so as well.
-/
namespace Peg

open Grammar Trace

inductive Outcome.Same {α β : Type} (R : α → β → Prop) : Outcome α → Outcome β → Prop
  | done {a b} (related : R a b) : Same R (.done a) (.done b)
  | fault (cause) : Same R (.fault cause) (.fault cause)
  | unfinished : Same R .unfinished .unfinished

theorem Outcome.Same.imp {α β : Type} {R S : α → β → Prop} {x : Outcome α} {y : Outcome β}
    (same : Same R x y) (weaker : ∀ a b, R a b → S a b) : Same S x y := by
  cases same with
  | done related => exact .done (weaker _ _ related)
  | fault cause => exact .fault cause
  | unfinished => exact .unfinished

theorem Outcome.Same.eq {α : Type} {x y : Outcome α} (same : Same Eq x y) : x = y := by
  cases same with
  | done related => rw [related]
  | fault cause => rfl
  | unfinished => rfl

namespace Trace

/-- Rules that are built are those of their names. -/
def State.Follows (rules : Rules) (state : State) : Prop :=
  ∀ name g, state.built.lookup name = some g → rules.lookup name = some g

theorem State.fresh_follows (rules : Rules) : State.fresh.Follows rules := nofun

/-- An ending that a computation from `state` comes to if it does what a transcript says. -/
structure Ending.Keeps {α β : Type} (rules : Rules) (R : α → β → Prop) (level : Level)
    (state : State) (transcript : Transcript β) (ending : Ending α) : Prop where
  outcome : Outcome.Same R ending.outcome transcript.outcome
  events : ending.events = if level = .trace then transcript.events state.label else []
  label : ending.state.label = state.label
  follows : ending.state.Follows rules

theorem Ending.Keeps.silent {α β : Type} {rules : Rules} {R : α → β → Prop} {level : Level}
    {state after : State} {x : Outcome α} {y : Outcome β} (same : Outcome.Same R x y)
    (label : after.label = state.label) (follows : after.Follows rules) :
    Ending.Keeps rules R level state ⟨y, []⟩ ⟨x, [], after⟩ :=
  ⟨same, (ite_self []).symm, label, follows⟩

end Trace

def keeping (rules : Rules) : Simulation Run Transcript where
  Rel R run transcript := ∀ level (state : State), state.Follows rules →
    (run level state).Keeps rules R level state transcript
  audible := True
  pure := fun related level state follows => .silent (.done related) rfl follows
  bind := by
    intro _ _ _ _ R S x y f g kept later level state follows
    have first := kept level state follows
    show ((x.bind f) level state).Keeps rules S level state (y.bind g)
    rw [Run.bind, Transcript.bind]
    generalize x level state = ending at first ⊢
    obtain ⟨outcome, events, after⟩ := ending
    obtain ⟨outcome', parts⟩ := y
    obtain ⟨same, told, label, known⟩ := first
    cases same with
    | fault cause => exact ⟨.fault cause, told, label, known⟩
    | unfinished => exact ⟨.unfinished, told, label, known⟩
    | @done a b related =>
      have second := later a b related level after known
      refine ⟨second.outcome, ?_, second.label.trans label, second.follows⟩
      have told' := second.events
      simp only at told label ⊢
      rw [told, told', label]
      split
      · exact (Transcript.Part.eventsOf_append parts (g b).parts).symm
      · rfl
  imp := by
    intro _ _ _ _ x y weaker kept level state follows
    have ended := kept level state follows
    exact ⟨ended.outcome.imp weaker, ended.events, ended.label, ended.follows⟩
  note := by
    intro a b heard level state follows
    obtain rfl := heard trivial
    exact ⟨.done trivial, rfl, rfl, follows⟩
  within := by
    intro _ _ _ x y name kept level state follows
    have inside := kept level { state with label := name } follows
    refine ⟨inside.outcome, ?_, rfl, inside.follows⟩
    rw [Transcript.events_within]
    exact inside.events

theorem keeping_apply (rules : Rules) (act : Action) (tree : Option Tree) :
    (keeping rules).Rel Eq (Monitor.apply act tree) (Monitor.apply act tree) := by
  intro level state follows
  unfold Monitor.apply
  cases act tree with
  | ok new => exact .silent (.done rfl) rfl follows
  | error cause => exact .silent (.fault cause) rfl follows

theorem keeping_find (rules : Rules) (name : Text) :
    (keeping rules).Rel Eq (Run.find rules name) (pure (rules.lookup name)) := by
  intro level state follows
  unfold Run.find
  split
  · next g built =>
    rw [follows name g built]
    exact .silent (.done rfl) rfl follows
  · split
    · next g known =>
      rw [known]
      refine .silent (.done rfl) rfl fun other g' built => ?_
      rw [List.lookup_cons] at built
      split at built
      · next same =>
        cases built
        rw [eq_of_beq same, known]
      · exact follows other g' built
    · next unknown =>
      rw [unknown]
      exact .silent (.done rfl) rfl follows

def ending : Simulation Transcript Outcome where
  Rel R transcript plain := Outcome.Same R transcript.outcome plain
  audible := False
  pure := .done
  bind := by
    intro _ _ _ _ R S x y f g same later
    obtain ⟨outcome, parts⟩ := x
    cases same with
    | done related => exact later _ _ related
    | fault cause => exact .fault cause
    | unfinished => exact .unfinished
  imp := fun weaker same => same.imp weaker
  note := fun _ => .done trivial
  within := fun _ same => same

theorem ending_apply (act : Action) (tree : Option Tree) :
    ending.Rel Eq (Monitor.apply act tree) (Monitor.apply act tree) := by
  unfold Monitor.apply
  cases act tree with
  | ok new => exact .done rfl
  | error cause => exact .fault cause

namespace Grammar

variable (rules : Rules) (g : Grammar)

def traceAt (depth : Nat) (input : Text) : Run (Option Match) :=
  g.parser (call (Run.find rules) depth) input

theorem traceAt_related (depth : Nat) (whole : Text) :
    (keeping rules).Related True whole (g.traceAt rules depth)
      (g.parser (call (fun name => pure (rules.lookup name)) depth)) :=
  Simulation.same_grammar (keeping_apply rules) (Simulation.same_calls (keeping_apply rules)
    (fun _ _ follows => .silent .unfinished rfl follows) (keeping_find rules) depth) g

theorem trace_related (whole : Text) :
    (keeping rules).Related True whole (g.trace rules) (g.transcript rules) := fun input _ =>
  traceAt_related rules g (rules.depth input) input input List.suffix_rfl

theorem trace_keeps (input : Text) :
    (keeping rules).Rel Eq (g.trace rules input) (g.transcript rules input) :=
  (keeping rules).imp (fun _ _ => Match.Alike.option_eq) (trace_related rules g input input List.suffix_rfl)

theorem traceComplete_keeps (input : Text) :
    (keeping rules).Rel Eq (g.traceComplete rules input) (g.transcriptComplete rules input) := by
  have related := Simulation.complete (trace_related rules g input)
  exact (keeping rules).imp (fun _ _ => Match.Alike.option_eq) (related input List.suffix_rfl)

theorem transcript_related (whole : Text) :
    ending.Related True whole (g.transcript rules) (g.parse rules) := by
  intro input _
  have finds : ∀ name, ending.Rel Eq (pure (rules.lookup name)) (pure (rules.lookup name)) :=
    fun name => .done rfl
  have calls (name : Text) : ending.Related True input _ _ :=
    Simulation.same_calls ending_apply .unfinished finds (rules.depth input) name
  exact Simulation.same_grammar ending_apply calls g input List.suffix_rfl

theorem transcript_outcome (input : Text) :
    (g.transcript rules input).outcome = g.parse rules input := by
  have related := transcript_related rules g input input List.suffix_rfl
  exact (related.imp fun _ _ => Match.Alike.option_eq).eq

theorem transcriptComplete_outcome (input : Text) :
    (g.transcriptComplete rules input).outcome = g.parseComplete rules input := by
  have related := Simulation.complete (transcript_related rules g input) input List.suffix_rfl
  exact (related.imp fun _ _ => Match.Alike.option_eq).eq

variable {rules} {state : State}

/-- Keeping a trace changes no result, at any level. -/
theorem trace_outcome (follows : state.Follows rules) (input : Text) (level : Level) :
    (g.trace rules input level state).outcome = g.parse rules input :=
  (trace_keeps rules g input level state follows).outcome.eq.trans (transcript_outcome rules g input)

theorem traceComplete_outcome (follows : state.Follows rules) (input : Text) (level : Level) :
    (g.traceComplete rules input level state).outcome = g.parseComplete rules input :=
  (traceComplete_keeps rules g input level state follows).outcome.eq.trans
    (transcriptComplete_outcome rules g input)

end Grammar
end Peg
