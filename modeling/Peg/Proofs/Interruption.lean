import Peg.Proofs.Recognition
import Peg.Proofs.Transcript.Trace

/-!
An action that breaks a parse off undoes nothing and skips nothing. With one that does not
break off in its place the parse reports the same up to there, and then goes on; a parse that
is not broken off does not even notice.
-/
namespace Peg

open Grammar Trace Transcript.Part

namespace Action

def IsFatal (act : Action) : Prop := ∀ tree, ∃ cause, act tree = .error cause

def IsSteady (act : Action) : Prop := act.IsFatal ∨ act.IsTotal

/-- An action that always breaks off gives way to one that never does; any other one stays. -/
def Mended (act act' : Action) : Prop :=
  (act.IsFatal ∧ act'.IsTotal) ∨ (¬ act.IsFatal ∧ act' = act)

theorem Mended.kept {act act' : Action} (mended : act.Mended act') {tree new : Option Tree}
    (made : act tree = .ok new) : act' = act := by
  rcases mended with ⟨fatal, -⟩ | ⟨-, same⟩
  · obtain ⟨cause, broken⟩ := fatal tree
    simp [broken] at made
  · exact same

end Action

/-- The first computation is the front of the second, up to where an action broke it off.
Where both are broken off there, an action that is in both did it, and `stray` says so. -/
inductive Transcript.Leads (stray : Prop) {α β : Type} (R : α → β → Prop) (x : Transcript α)
    (y : Transcript β) : Prop
  | whole (ended : Outcome.Same R x.outcome y.outcome)
      (told : ∀ label, y.events label = x.events label)
      (blamed : ∀ cause, x.outcome = .fault cause → stray)
  | cut {cause} (broken : x.outcome = .fault cause)
      (more : ∀ label, ∃ event later, y.events label = x.events label ++ event :: later)

theorem Transcript.exists_bind_events {α β : Type} (x : Transcript α) (next : α → Transcript β) :
    ∃ later, ∀ label, (x >>= next).events label = x.events label ++ eventsOf label later := by
  obtain ⟨outcome, parts⟩ := x
  cases outcome with
  | done value => exact ⟨(next value).parts, fun label => eventsOf_append ..⟩
  | fault | breach | unfinished => exact ⟨[], fun label => (List.append_nil _).symm⟩

def leading (stray : Prop) : Simulation Transcript Transcript where
  Rel := Transcript.Leads stray
  audible := True
  pure := fun related => .whole (.done related) (fun _ => rfl) nofun
  bind := by
    intro _ _ _ _ _ _ x y f g leads later
    cases leads with
    | whole ended told blamed =>
      obtain ⟨outcome, parts⟩ := x
      obtain ⟨outcome', parts'⟩ := y
      cases ended with
      | fault cause => exact .whole (.fault cause) told fun _ _ => blamed cause rfl
      | unfinished => exact .whole .unfinished told nofun
      | @done a b related =>
        have events (label : Text) : eventsOf label parts' = eventsOf label parts := told label
        cases later a b related with
        | whole ended told blamed =>
          refine .whole ended (fun label => ?_) blamed
          show eventsOf label (parts' ++ (g b).parts) = eventsOf label (parts ++ (f a).parts)
          rw [eventsOf_append, eventsOf_append, events]
          exact congrArg _ (told label)
        | cut broken more =>
          refine .cut broken fun label => ?_
          obtain ⟨event, behind, told⟩ := more label
          refine ⟨event, behind, ?_⟩
          show eventsOf label (parts' ++ (g b).parts) = eventsOf label (parts ++ (f a).parts) ++ _
          rw [eventsOf_append, eventsOf_append, events, List.append_assoc]
          exact congrArg _ told
    | cut broken more =>
      obtain ⟨outcome, parts⟩ := x
      obtain rfl : outcome = .fault _ := broken
      obtain ⟨rest, told'⟩ := y.exists_bind_events g
      refine .cut rfl fun label => ?_
      obtain ⟨event, behind, told⟩ := more label
      refine ⟨event, behind ++ eventsOf label rest, ?_⟩
      rw [told' label, told, List.append_assoc]
      rfl
  imp := by
    intro _ _ _ _ x y weaker leads
    cases leads with
    | whole ended told blamed => exact .whole (ended.imp weaker) told blamed
    | cut broken more => exact .cut broken more
  note := by
    intro a b heard
    obtain rfl := heard trivial
    exact .whole (.done trivial) (fun _ => rfl) nofun
  within := by
    intro _ _ _ x y name leads
    cases leads with
    | whole ended told blamed =>
      refine .whole ended (fun label => ?_) blamed
      rw [Transcript.events_within, Transcript.events_within, told]
    | cut broken more =>
      refine .cut broken fun label => ?_
      rw [Transcript.events_within, Transcript.events_within]
      exact more name

theorem Action.Mended.carries {stray : Prop} {act act' : Action} (mended : act.Mended act')
    (blame : ¬ act.IsSteady → stray) : (leading stray).Carries True True act act' := by
  constructor
  intro _ _ R f g input tree tree' equal later
  obtain rfl := equal trivial
  cases ran : act tree' with
  | ok new =>
    obtain rfl := mended.kept ran
    have same : (leading stray).Rel Eq (Monitor.apply act' tree') (Monitor.apply act' tree') := by
      simp only [Monitor.apply, ran]
      exact (leading stray).pure rfl
    refine (leading stray).bind same fun new new' made => ?_
    rw [made]
    exact Simulation.after_note _ (later new' new' fun _ => rfl)
  | error cause =>
    rcases mended with ⟨-, total⟩ | ⟨weak, rfl⟩
    · obtain ⟨new, made⟩ := total tree'
      simp only [Monitor.apply, ran, made]
      exact .cut (rfl : _ = Outcome.fault cause) fun label =>
        ⟨⟨label, ⟨.action, .words [], input, .made new⟩⟩, (g new).events label, rfl⟩
    · have unsteady : ¬ act'.IsSteady := by
        rintro (fatal | total)
        · exact weak fatal
        · obtain ⟨new, made⟩ := total tree'
          simp [ran] at made
      simp only [Monitor.apply, ran]
      exact .whole (.fault cause) (fun _ => rfl) fun _ _ => blame unsteady

namespace Grammar

variable {g g' : Grammar} {rules rules' : Rules}

end Grammar
end Peg
