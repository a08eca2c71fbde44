import Peg.Proofs.Transcript.Balanced
import Peg.Proofs.Transcript.Trace

/-!
What is entered also ends. The events of a parse that is not cut off are balanced: each entry
is followed by one end, of the same operation on the same input and under the same label,
and such pairs nest. A parse that is cut off leaves the front of a balanced sequence.
-/
namespace Peg

open Trace

namespace Transcript

variable {α β : Type} {x : Transcript α} {f : α → Transcript β} {opening closing : Report}

/-- A computation whose events are balanced if it ends, and the front of a balanced sequence
in any case, whatever label it starts under. -/
structure Bracketed (x : Transcript α) : Prop where
  balanced : ∀ value, x.outcome = .done value → ∀ label, Balanced (x.events label)
  cut : ∀ label, Cut (x.events label)

/-- A computation that ends what a report before it began. -/
structure Finishes (opening : Report) (x : Transcript α) : Prop where
  balanced : ∀ value, x.outcome = .done value →
    ∀ label, Balanced (⟨label, opening⟩ :: x.events label)
  cut : ∀ label, Cut (⟨label, opening⟩ :: x.events label)

theorem bind_ran (x : Transcript α) (f : α → Transcript β) :
    (∃ value, x.outcome = .done value ∧ (x >>= f).outcome = (f value).outcome ∧
      ∀ label, (x >>= f).events label = x.events label ++ (f value).events label) ∨
    (∀ value, (x >>= f).outcome ≠ .done value) ∧ ∀ label, (x >>= f).events label = x.events label := by
  obtain ⟨outcome, parts⟩ := x
  cases outcome with
  | done value => exact .inl ⟨value, rfl, rfl, fun _ => Part.eventsOf_append ..⟩
  | fault cause => exact .inr ⟨nofun, fun _ => rfl⟩
  | breach => exact .inr ⟨nofun, fun _ => rfl⟩
  | unfinished => exact .inr ⟨nofun, fun _ => rfl⟩

theorem silent_bracketed (silent : x.parts = []) : x.Bracketed := by
  have events (label : Text) : x.events label = [] := by
    rw [Transcript.events, silent]
    rfl
  refine ⟨fun _ _ label => ?_, fun label => ?_⟩ <;> rw [events]
  · exact .nil
  · exact Balanced.nil.cut

theorem pure_bracketed (value : α) : (pure value : Transcript α).Bracketed := silent_bracketed rfl

theorem bind_bracketed (first : x.Bracketed) (later : ∀ value, (f value).Bracketed) :
    (x >>= f).Bracketed := by
  obtain ⟨value, ended, outcome, events⟩ | ⟨stopped, events⟩ := bind_ran x f
  · have front := first.balanced value ended
    refine ⟨fun _ done label => ?_, fun label => ?_⟩ <;> rw [events]
    · exact (front label).append ((later value).balanced _ (outcome ▸ done) label)
    · exact (front label).append_cut ((later value).cut label)
  · refine ⟨fun _ done => absurd done (stopped _), fun label => ?_⟩
    rw [events]
    exact first.cut label

theorem bind_finishes (opens : opening.Opens) (first : x.Bracketed)
    (later : ∀ value, Finishes opening (f value)) : Finishes opening (x >>= f) := by
  obtain ⟨value, ended, outcome, events⟩ | ⟨stopped, events⟩ := bind_ran x f
  · have front := first.balanced value ended
    refine ⟨fun _ done label => ?_, fun label => ?_⟩ <;> rw [events]
    · exact .cons_append opens (front label) ((later value).balanced _ (outcome ▸ done) label)
    · exact .cons_append opens (front label) ((later value).cut label)
  · refine ⟨fun _ done => absurd done (stopped _), fun label => ?_⟩
    rw [events]
    exact .cons opens (first.cut label)

theorem note_bracketed {report : Report} (lone : ¬ report.IsPaired) (later : x.Bracketed) :
    (Monitor.note report >>= fun _ => x : Transcript α).Bracketed where
  balanced value done label := .alone lone (later.balanced value done label)
  cut label := Balanced.append_cut (.alone lone .nil) (later.cut label)

theorem enter_bracketed (finishes : Finishes opening x) :
    (Monitor.note opening >>= fun _ => x : Transcript α).Bracketed :=
  ⟨finishes.balanced, finishes.cut⟩

theorem close_finishes (opens : opening.Opens) (closes : closing.Closes opening)
    (later : x.Bracketed) : Finishes opening (Monitor.note closing >>= fun _ => x) := by
  have pair (label : Text) : Balanced [⟨label, opening⟩, ⟨label, closing⟩] :=
    .at_once opens ⟨rfl, closes⟩
  exact ⟨fun value done label => (pair label).append (later.balanced value done label),
    fun label => (pair label).append_cut (later.cut label)⟩

theorem refuse_finishes {detail : Detail} (opens : opening.Opens)
    (paired : Report.IsPaired ⟨opening.operation, detail, opening.input, .failed⟩) :
    Finishes opening (Monitor.refuse opening.operation detail opening.input) :=
  close_finishes opens ⟨rfl, rfl, paired, Verdict.noConfusion⟩ (pure_bracketed _)

theorem within_bracketed (name : Text) (inner : x.Bracketed) :
    (Monitor.within name x : Transcript α).Bracketed := by
  refine ⟨fun value ended label => ?_, fun label => ?_⟩ <;> rw [events_within]
  · exact inner.balanced value ended name
  · exact inner.cut name

theorem consumed_bracketed (input rest : Text) :
    (Monitor.consumed input rest : Transcript Text).Bracketed := by
  unfold Monitor.consumed
  split <;> exact silent_bracketed rfl

theorem apply_bracketed (act : Action) (tree : Option Tree) :
    (Monitor.apply act tree : Transcript (Option Tree)).Bracketed := by
  unfold Monitor.apply
  split <;> exact silent_bracketed rfl

end Transcript

namespace Parser

open Transcript

def Bracketed (p : Parser Transcript) : Prop := ∀ input, (p input).Bracketed

variable {p value separator : Parser Transcript} {ps : List (Parser Transcript)}

theorem literal_bracketed (token : Text) : Bracketed (literal token) := by
  intro input
  unfold literal
  split
  · exact note_bracketed (fun paired => paired rfl) (pure_bracketed _)
  · next some =>
    have paired : Detail.words token ≠ .words [] := by
      rintro ⟨⟩
      exact some rfl
    have opens : Report.Opens ⟨.literal, .words token, input, .entered⟩ := ⟨paired, rfl⟩
    refine enter_bracketed ?_
    split
    · refine bind_finishes opens (consumed_bracketed ..) fun parsed => ?_
      exact close_finishes opens ⟨rfl, rfl, paired, Verdict.noConfusion⟩ (pure_bracketed _)
    · exact refuse_finishes opens paired

theorem char_bracketed (accepted : CharClass) : Bracketed (char accepted) := by
  intro input
  have paired (verdict : Verdict) :
      Report.IsPaired ⟨accepted.operation, accepted.detail, input, verdict⟩ := by
    cases accepted <;> trivial
  have opens : Report.Opens ⟨accepted.operation, accepted.detail, input, .entered⟩ := ⟨paired _, rfl⟩
  refine enter_bracketed ?_
  cases input with
  | nil => exact refuse_finishes opens (paired _)
  | cons c rest =>
    dsimp only
    split
    · exact close_finishes opens ⟨rfl, rfl, paired _, Verdict.noConfusion⟩ (pure_bracketed _)
    · exact refuse_finishes opens (paired _)

theorem whitespace_bracketed : Bracketed whitespace := fun _ =>
  note_bracketed id (bind_bracketed (consumed_bracketed ..) fun _ => pure_bracketed _)

theorem endOfInput_bracketed : Bracketed endOfInput := by
  intro input
  unfold endOfInput
  split <;> exact note_bracketed id (pure_bracketed _)

theorem leaf_bracketed (parser : Leaf) : Bracketed (leaf parser) := fun _ => pure_bracketed _

theorem chain_bracketed (parts : ∀ p ∈ ps, Bracketed p) (input : Text) :
    (chain ps input).Bracketed := by
  induction ps generalizing input with
  | nil => exact pure_bracketed _
  | cons p ps ih =>
    obtain ⟨first, others⟩ := List.forall_mem_cons.mp parts
    refine bind_bracketed (first input) fun found => ?_
    cases found with
    | none => exact pure_bracketed _
    | some found =>
      refine bind_bracketed (ih others found.rest) fun later => ?_
      cases later <;> exact pure_bracketed _

theorem sequence_bracketed (parts : ∀ p ∈ ps, Bracketed p) : Bracketed (sequence ps) := by
  intro input
  have opens : Report.Opens ⟨.sequence, .count ps.length, input, .entered⟩ := ⟨trivial, rfl⟩
  refine enter_bracketed (bind_finishes opens (chain_bracketed parts input) fun found => ?_)
  cases found with
  | none => exact refuse_finishes opens trivial
  | some found =>
    refine bind_finishes opens (consumed_bracketed ..) fun parsed => ?_
    exact close_finishes opens ⟨rfl, rfl, trivial, Verdict.noConfusion⟩ (pure_bracketed _)

theorem firstMatch_bracketed (parts : ∀ p ∈ ps, Bracketed p) (input : Text) (index : Nat) :
    (firstMatch input ps index).Bracketed := by
  induction ps generalizing index with
  | nil => exact pure_bracketed _
  | cons p ps ih =>
    obtain ⟨first, others⟩ := List.forall_mem_cons.mp parts
    refine bind_bracketed (first input) fun found => ?_
    cases found with
    | none => exact ih others (index + 1)
    | some found => exact pure_bracketed _

theorem choice_bracketed (parts : ∀ p ∈ ps, Bracketed p) : Bracketed (choice ps) := by
  intro input
  have opens : Report.Opens ⟨.choice, .count ps.length, input, .entered⟩ := ⟨trivial, rfl⟩
  refine enter_bracketed (bind_finishes opens (firstMatch_bracketed parts input 0) fun found => ?_)
  cases found with
  | none => exact refuse_finishes opens trivial
  | some found => exact close_finishes opens ⟨rfl, rfl, trivial, Verdict.noConfusion⟩ (pure_bracketed _)

theorem iterate_bracketed (inner : Bracketed p) (attempts count : Nat) (rest : Text) :
    (iterate p attempts count rest).Bracketed := by
  induction attempts generalizing count rest with
  | zero => exact silent_bracketed rfl
  | succ attempts ih =>
    refine bind_bracketed (inner rest) fun found => ?_
    cases found with
    | none => exact pure_bracketed _
    | some found =>
      dsimp only
      split
      · exact note_bracketed id (pure_bracketed _)
      · exact bind_bracketed (ih ..) fun _ => pure_bracketed _

theorem many_bracketed (inner : Bracketed p) : Bracketed (many p) := by
  intro input
  have opens : Report.Opens ⟨.many, .words [], input, .entered⟩ := ⟨trivial, rfl⟩
  refine enter_bracketed (bind_finishes opens (iterate_bracketed inner ..) fun found => ?_)
  refine close_finishes opens ⟨rfl, rfl, trivial, Verdict.noConfusion⟩ ?_
  split
  · exact pure_bracketed _
  · exact bind_bracketed (consumed_bracketed ..) fun _ => pure_bracketed _

theorem many1_bracketed (inner : Bracketed p) : Bracketed (many1 p) := by
  intro input
  have opens : Report.Opens ⟨.many1, .words [], input, .entered⟩ := ⟨trivial, rfl⟩
  refine enter_bracketed (bind_finishes opens (iterate_bracketed inner ..) fun found => ?_)
  split
  · exact refuse_finishes opens trivial
  · refine close_finishes opens ⟨rfl, rfl, trivial, Verdict.noConfusion⟩ ?_
    exact bind_bracketed (consumed_bracketed ..) fun _ => pure_bracketed _

theorem pairs_bracketed (values : Bracketed value) (separators : Bracketed separator)
    (attempts : Nat) (rest : Text) : (pairs value separator attempts rest).Bracketed := by
  induction attempts generalizing rest with
  | zero => exact silent_bracketed rfl
  | succ attempts ih =>
    refine bind_bracketed (separators rest) fun gap => ?_
    cases gap with
    | none => exact pure_bracketed _
    | some gap =>
      refine bind_bracketed (values gap.rest) fun item => ?_
      cases item with
      | none => exact pure_bracketed _
      | some item =>
        dsimp only
        split
        · exact pure_bracketed _
        · exact bind_bracketed (ih item.rest) fun _ => pure_bracketed _

theorem sepBy_bracketed (values : Bracketed value) (separators : Bracketed separator) :
    Bracketed (sepBy value separator) := by
  intro input
  have opens : Report.Opens ⟨.sepBy, .words [], input, .entered⟩ := ⟨trivial, rfl⟩
  refine enter_bracketed (bind_finishes opens (values input) fun item => ?_)
  cases item with
  | none => exact close_finishes opens ⟨rfl, rfl, trivial, Verdict.noConfusion⟩ (pure_bracketed _)
  | some item =>
    refine bind_finishes opens (pairs_bracketed values separators ..) fun later => ?_
    refine bind_finishes opens (consumed_bracketed ..) fun parsed => ?_
    exact close_finishes opens ⟨rfl, rfl, trivial, Verdict.noConfusion⟩ (pure_bracketed _)

theorem capture_bracketed (inner : Bracketed p) : Bracketed (capture p) := by
  intro input
  refine bind_bracketed (inner input) fun found => ?_
  cases found with
  | none => exact pure_bracketed _
  | some found => exact note_bracketed id (pure_bracketed _)

theorem action_bracketed (inner : Bracketed p) (act : Action) : Bracketed (action p act) := by
  intro input
  refine bind_bracketed (inner input) fun found => ?_
  cases found with
  | none => exact pure_bracketed _
  | some found =>
    exact bind_bracketed (apply_bracketed ..) fun _ => note_bracketed id (pure_bracketed _)

theorem optional_bracketed (inner : Bracketed p) : Bracketed (optional p) := by
  intro input
  refine bind_bracketed (inner input) fun found => ?_
  cases found <;> exact pure_bracketed _

theorem label_bracketed (name : Text) (inner : Bracketed p) : Bracketed (label name p) :=
  fun input => within_bracketed name (inner input)

theorem complete_bracketed (inner : Bracketed p) : Bracketed (complete p) := by
  intro input
  refine bind_bracketed (inner input) fun found => ?_
  cases found with
  | none => exact pure_bracketed _
  | some found =>
    dsimp only
    split
    · exact pure_bracketed _
    · exact note_bracketed id (pure_bracketed _)

end Parser

namespace Grammar

open Transcript

section

variable {call : Text → Parser Transcript}

mutual

theorem parser_bracketed (calls : ∀ name, Parser.Bracketed (call name)) (g : Grammar) :
    Parser.Bracketed (g.parser call) := by
  match g with
  | .literal token => exact Parser.literal_bracketed token
  | .char accepted => exact Parser.char_bracketed accepted
  | .whitespace => exact Parser.whitespace_bracketed
  | .endOfInput => exact Parser.endOfInput_bracketed
  | .sequence first others =>
    exact Parser.sequence_bracketed (parsers_bracketed calls (first :: others))
  | .choice first others => exact Parser.choice_bracketed (parsers_bracketed calls (first :: others))
  | .many inner => exact Parser.many_bracketed (parser_bracketed calls inner)
  | .many1 inner => exact Parser.many1_bracketed (parser_bracketed calls inner)
  | .sepBy value separator =>
    exact Parser.sepBy_bracketed (parser_bracketed calls value) (parser_bracketed calls separator)
  | .capture inner => exact Parser.capture_bracketed (parser_bracketed calls inner)
  | .action inner act => exact Parser.action_bracketed (parser_bracketed calls inner) act
  | .optional inner => exact Parser.optional_bracketed (parser_bracketed calls inner)
  | .label name inner => exact Parser.label_bracketed name (parser_bracketed calls inner)
  | .rule name => exact calls name
  | .leaf parser => exact Parser.leaf_bracketed parser
  | .wrapped _ inner => exact parser_bracketed calls inner

theorem parsers_bracketed (calls : ∀ name, Parser.Bracketed (call name)) (gs : List Grammar) :
    ∀ p ∈ parsers call gs, Parser.Bracketed p := by
  match gs with
  | [] => exact nofun
  | g :: gs =>
    exact List.forall_mem_cons.mpr ⟨parser_bracketed calls g, parsers_bracketed calls gs⟩

end

end

theorem call_bracketed (rules : Rules) (depth : Nat) (name : Text) :
    Parser.Bracketed (call (fun name => pure (rules.lookup name)) depth name) := by
  induction depth generalizing name with
  | zero => exact fun _ => silent_bracketed rfl
  | succ depth ih =>
    intro input
    refine bind_bracketed (pure_bracketed _) fun body => ?_
    cases body with
    | none => exact pure_bracketed _
    | some g => exact parser_bracketed ih g input

theorem transcript_bracketed (rules : Rules) (g : Grammar) : Parser.Bracketed (g.transcript rules) :=
  fun input => parser_bracketed (call_bracketed rules _) g input

theorem transcriptComplete_bracketed (rules : Rules) (g : Grammar) :
    Parser.Bracketed (g.transcriptComplete rules) := fun input =>
  Parser.complete_bracketed (transcript_bracketed rules g) input

end Grammar

/-- What the events of a run are like. If it ends they are balanced, and each entry among
them has exactly one end; if not, they could still be made so. -/
structure Trace.Ending.WellBracketed {α : Type} (ending : Ending α) : Prop where
  balanced : ∀ value, ending.outcome = .done value → Balanced ending.events
  matched : ∀ value, ending.outcome = .done value → ∀ before opening after,
    ending.events = before ++ opening :: after → opening.report.Opens →
      ∃! inside, Balanced inside ∧
        ∃ closing later, after = inside ++ closing :: later ∧ closing.Closes opening
  cut : Cut ending.events

theorem Transcript.Bracketed.wellBracketed {α : Type} {rules : Rules} {level : Level}
    {state : State} {transcript : Transcript α} {ending : Ending α}
    (bracketed : transcript.Bracketed) (kept : ending.Keeps rules Eq level state transcript) :
    ending.WellBracketed := by
  have balanced : ∀ value, ending.outcome = .done value → Balanced ending.events := by
    intro value ended
    rw [kept.events]
    split
    · exact bracketed.balanced value (kept.outcome.eq ▸ ended) state.label
    · exact .nil
  refine ⟨balanced, fun value ended before opening after split opens => ?_, ?_⟩
  · exact (balanced value ended).matched opens split
  · rw [kept.events]
    split
    · exact bracketed.cut state.label
    · exact Balanced.nil.cut

namespace Grammar

variable {rules : Rules} {state : State}

/-- In a trace every operation that is entered ends once, on the same input and under the
same label, and after all that was entered inside it. Only a parse that is cut off leaves
entries without an end, and never an end without its entry. -/
theorem trace_wellBracketed (follows : state.Follows rules) (g : Grammar) (input : Text)
    (level : Level) : (g.trace rules input level state).WellBracketed ∧
      (g.traceComplete rules input level state).WellBracketed :=
  ⟨(transcript_bracketed rules g input).wellBracketed (trace_keeps rules g input level state follows),
    (transcriptComplete_bracketed rules g input).wellBracketed
      (traceComplete_keeps rules g input level state follows)⟩

def roundsRules : Rules := [(['r'], many (label ['i'] (sequence (token ";") [digit])))]

def roundsState : State := ⟨['o'], roundsRules⟩

theorem rounds_wellBracketed :
    roundsState.Follows roundsRules ∧
    (∃ found, ((rule ['r']).trace roundsRules [';', '1', 'x'] .trace roundsState).outcome =
      .done (some found)) ∧
    Balanced ((rule ['r']).trace roundsRules [';', '1', 'x'] .trace roundsState).events ∧
    Cut ((rule ['r']).traceComplete roundsRules [';', '1', 'x'] .trace roundsState).events := by
  have follows : roundsState.Follows roundsRules := fun _ _ built => built
  have ended : ((rule ['r']).trace roundsRules [';', '1', 'x'] .trace roundsState).outcome =
      .done (some ⟨[';', '1'], ['x'], some (.list [.list [.text [';'], .text ['1']]])⟩) := rfl
  obtain ⟨plain, complete⟩ := trace_wellBracketed follows (rule ['r']) [';', '1', 'x'] .trace
  exact ⟨follows, ⟨_, ended⟩, plain.balanced _ ended, complete.cut⟩

end Grammar
end Peg
