import Mathlib.Data.List.Induction
import Peg.Proofs.Transcript.Trace
import Peg.Session

/-!
Parsers can be used again and again. Whatever was parsed before, at whatever level and
however it ended, a step of a session replies as it would at the very start: no label is
left in force, and the rules that are built are the rules that would be built.
-/
namespace Peg

open Grammar Trace

/-- What a memory is between steps: no label, and rules that are those of their names. -/
structure Trace.State.Idle (rules : Rules) (memory : State) : Prop where
  label : memory.label = []
  follows : memory.Follows rules

theorem Trace.State.fresh_idle (rules : Rules) : State.fresh.Idle rules :=
  ⟨rfl, State.fresh_follows rules⟩

section

variable {α : Type} {rules : Rules} {run : Run α} {transcript : Transcript α}
variable {memory other : State}

theorem outcome_forgets (kept : (keeping rules).Rel Eq run transcript) (idle : memory.Idle rules)
    (idle' : other.Idle rules) (level level' : Level) :
    (run level memory).outcome = (run level' other).outcome :=
  (kept level memory idle.follows).outcome.eq.trans (kept level' other idle'.follows).outcome.eq.symm

theorem events_forget (kept : (keeping rules).Rel Eq run transcript) (idle : memory.Idle rules)
    (idle' : other.Idle rules) (level : Level) :
    (run level memory).events = (run level other).events := by
  rw [(kept level memory idle.follows).events, (kept level other idle'.follows).events, idle.label,
    idle'.label]

theorem idle_after (kept : (keeping rules).Rel Eq run transcript) (idle : memory.Idle rules)
    (level : Level) : (run level memory).state.Idle rules :=
  ⟨(kept level memory idle.follows).label.trans idle.label, (kept level memory idle.follows).follows⟩

end

namespace Session

variable {rules : Rules} {input cursor : Text} {memory other : Trace.State}

theorem compare_keeps (rules : Rules) (g : Grammar) (input : Text) :
    (keeping rules).Rel Eq (compare rules g input) (do
      let first ← g.transcript rules input
      let second ← g.transcript rules input
      pure (first == second)) := by
  refine (keeping rules).bind (trace_keeps rules g input) fun first first' same => ?_
  refine (keeping rules).bind (trace_keeps rules g input) fun second second' same' => ?_
  rw [same, same']
  exact (keeping rules).pure rfl

theorem step_idle (idle : memory.Idle rules) (s : Step) :
    (step rules input s ⟨cursor, memory⟩).2.memory.Idle rules := by
  obtain ⟨command, level⟩ := s
  cases command with
  | apply g | peek g => exact idle_after (trace_keeps rules g cursor) idle _
  | complete g => exact idle_after (traceComplete_keeps rules g cursor) idle _
  | twice g => exact idle_after (compare_keeps rules g cursor) idle _
  | describe | reset => exact idle

theorem step_cursor (s : Step) (state : State) :
    (step rules input s state).2.cursor = (step rules input s state).1.cursor := by
  obtain ⟨command, level⟩ := s
  cases command <;> rfl

theorem step_reply (idle : memory.Idle rules) (idle' : other.Idle rules) (s : Step) :
    (step rules input s ⟨cursor, memory⟩).1 = (step rules input s ⟨cursor, other⟩).1 := by
  obtain ⟨command, level⟩ := s
  cases command with
  | apply g | peek g =>
    simp only [step, outcome_forgets (trace_keeps rules g cursor) idle idle' _ (level.getD .off),
      events_forget (trace_keeps rules g cursor) idle idle']
  | complete g =>
    simp only [step, outcome_forgets (traceComplete_keeps rules g cursor) idle idle' _ (level.getD .off),
      events_forget (traceComplete_keeps rules g cursor) idle idle']
  | twice g =>
    simp only [step, outcome_forgets (compare_keeps rules g cursor) idle idle' _ (level.getD .off),
      events_forget (compare_keeps rules g cursor) idle idle']
  | describe | reset => rfl

theorem step_answer (idle : memory.Idle rules) (idle' : other.Idle rules) (s : Step)
    (level : Option Level) : (step rules input { s with level } ⟨cursor, memory⟩).1.answer =
      (step rules input s ⟨cursor, other⟩).1.answer := by
  obtain ⟨command, level'⟩ := s
  cases command with
  | apply g | peek g =>
    exact congrArg Answer.result (outcome_forgets (trace_keeps rules g cursor) idle idle' _ _)
  | complete g =>
    exact congrArg Answer.result (outcome_forgets (traceComplete_keeps rules g cursor) idle idle' _ _)
  | twice g =>
    exact congrArg Answer.same (outcome_forgets (compare_keeps rules g cursor) idle idle' _ _)
  | describe | reset => rfl

def remembered (rules : Rules) (input : Text) (history : List (Text × Step)) : Trace.State :=
  history.foldl (fun memory used => (step rules input used.2 ⟨used.1, memory⟩).2.memory) .fresh

theorem remembered_idle (rules : Rules) (input : Text) (history : List (Text × Step)) :
    (remembered rules input history).Idle rules := by
  induction history using List.reverseRec with
  | nil => exact State.fresh_idle rules
  | append_singleton history used ih =>
    rw [remembered, List.foldl_append]
    exact step_idle ih used.2

/-- A session that builds all its parsers anew for each step. -/
def forgetful (rules : Rules) (input : Text) : List Step → (cursor : Text) → List Reply
  | [], _ => []
  | s :: steps, cursor =>
    let reply := (step rules input s ⟨cursor, .fresh⟩).1
    reply :: forgetful rules input steps reply.cursor

theorem run_forgets (idle : memory.Idle rules) (steps : List Step) :
    run rules input steps ⟨cursor, memory⟩ = forgetful rules input steps cursor := by
  induction steps generalizing cursor memory with
  | nil => rfl
  | cons s steps ih =>
    have reply : (step rules input s ⟨cursor, memory⟩).1 = (step rules input s ⟨cursor, .fresh⟩).1 :=
      step_reply idle (State.fresh_idle rules) s
    have next : (step rules input s ⟨cursor, memory⟩).2.cursor =
        (step rules input s ⟨cursor, memory⟩).1.cursor := step_cursor s _
    rw [run, forgetful, ← reply, ← next]
    exact congrArg _ (ih (step_idle idle s))

/-- Steps on any texts, at any levels and with any ends leave nothing behind that shows: the
next step replies as with parsers just built, its answer is the same at every level, and all
further steps go on as if each were the first. -/
theorem replies_forget_history (rules : Rules) (input : Text) (history : List (Text × Step))
    (cursor : Text) (s : Step) :
    (step rules input s ⟨cursor, remembered rules input history⟩).1 =
      (step rules input s ⟨cursor, .fresh⟩).1 ∧
    (∀ level, (step rules input { s with level } ⟨cursor, remembered rules input history⟩).1.answer =
      (step rules input s ⟨cursor, .fresh⟩).1.answer) ∧
    ∀ steps, run rules input steps ⟨cursor, remembered rules input history⟩ =
      forgetful rules input steps cursor := by
  have idle := remembered_idle rules input history
  have fresh := State.fresh_idle rules
  exact ⟨step_reply idle fresh s, step_answer idle fresh s, run_forgets idle⟩

end Session
end Peg
