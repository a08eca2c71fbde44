import Mathlib.Data.List.Forall2
import Peg.Proofs.Blank
import Peg.Proofs.Derivation.Consumption

/-!
Every plain run that ends is derived. A combinator keeps this of its parts, so
that it passes from the rules to every grammar over them, at any depth.
-/
namespace Peg

open Monitor Outcome

@[simp] theorem Outcome.map_done {α β : Type} (f : α → β) (value : α) :
    f <$> Outcome.done value = .done (f value) := rfl

@[simp] theorem Outcome.map_fault {α β : Type} (f : α → β) (cause : Fault) :
    f <$> (Outcome.fault cause : Outcome α) = .fault cause := rfl

@[simp] theorem Monitor.note_plain (report : Report) : (note report : Outcome Unit) = .done () := rfl

@[simp] theorem Monitor.refuse_plain (operation : Operation) (detail : Detail) (input : Text) :
    (refuse operation detail input : Outcome (Option Match)) = .done none := rfl

@[simp] theorem Monitor.consumed_append {m : Type → Type} [Monitor m] (front rest : Text) :
    (consumed (front ++ rest) rest : m Text) = pure front := by
  simp only [consumed, Text.before?_append]

theorem Monitor.consumed_row {m : Type → Type} [Monitor m] {input : Text} {row : List Match}
    (consecutive : Match.Consecutive input row) :
    (consumed input (Match.after input row) : m Text) = pure (row.flatMap (·.parsed)) := by
  have taken := consumed_append (m := m) (row.flatMap (·.parsed)) (Match.after input row)
  rwa [consecutive.splits] at taken

theorem Derives.whitespace_of {rules : Rules} (input : Text) :
    Derives rules .whitespace input
      (.done (some ⟨input.takeWhile Text.isBlank, Text.trimStart input, none⟩)) := by
  have derived : Derives rules .whitespace _ _ :=
    .whitespace _ _ (Text.blank_takeWhile input) (Text.solid_trimStart input)
  rwa [Text.blanks_append_trimStart] at derived

/-- Whatever a parser ends with, its grammar derives. -/
def Grammar.Explains (rules : Rules) (g : Grammar) (p : Parser Outcome) : Prop :=
  ∀ input, p input ≠ .unfinished → Derives rules g input (p input)

def Match.chained (input : Text) (row : List Match) : List Tree × Text :=
  (row.filterMap (·.tree), Match.after input row)

def Match.repeated (count : Nat) (input : Text) (row : List Match) : Parser.Repetition :=
  ⟨count + row.length, row.filterMap (·.tree), Match.after input row⟩

namespace Grammar.Explains

variable {rules : Rules} {g value separator : Grammar} {p q : Parser Outcome}

theorem ends (explained : g.Explains rules p) (input : Text) :
    p input = .unfinished ∨
      (p input = .done none ∧ Derives rules g input (.done none)) ∨
      (∃ found, p input = .done (some found) ∧ Derives rules g input (.done (some found)) ∧
        found.parsed ++ found.rest = input) ∨
      ∃ cause, p input = .fault cause ∧ Derives rules g input (.fault cause) := by
  by_cases stuck : p input = .unfinished
  · exact .inl stuck
  · have derived := explained input stuck
    rcases derived.splits.elim with ⟨_ | found, same, split⟩ | ⟨cause, same⟩ <;>
      rw [same] at derived
    · exact .inr (.inl ⟨same, derived⟩)
    · exact .inr (.inr (.inl ⟨found, same, derived, split found rfl⟩))
    · exact .inr (.inr (.inr ⟨cause, same, derived⟩))

theorem literal (token : Text) : (Grammar.literal token).Explains rules (Parser.literal token) := by
  intro input _
  by_cases empty : token = []
  · subst empty
    exact .emptyToken input
  · cases found : Text.after? token input with
    | some rest =>
      obtain rfl := Text.after?_eq_some_iff.mp found
      simpa [Parser.literal, empty, found] using Derives.token token rest empty
    | none =>
      have differs : ¬ token <+: input := by
        intro front
        obtain ⟨rest, same⟩ := front
        rw [Text.after?_eq_some_iff.mpr same] at found
        cases found
      simpa [Parser.literal, empty, found] using Derives.tokenFails token input differs

theorem char (accepted : CharClass) :
    (Grammar.char accepted).Explains rules (Parser.char accepted) := by
  intro input _
  cases input with
  | nil => exact .charAtEnd accepted
  | cons c rest =>
    cases test : accepted.accepts c with
    | true => simpa [Parser.char, test] using Derives.char accepted c rest test
    | false => simpa [Parser.char, test] using Derives.charFails accepted c rest test

theorem whitespace : Grammar.whitespace.Explains rules Parser.whitespace := by
  intro input _
  have taken := consumed_append (m := Outcome) (input.takeWhile Text.isBlank) (Text.trimStart input)
  rw [Text.blanks_append_trimStart] at taken
  simpa [Parser.whitespace, taken] using Derives.whitespace_of input

theorem endOfInput : Grammar.endOfInput.Explains rules Parser.endOfInput := by
  intro input _
  cases input with
  | nil => exact .endOfInput
  | cons c rest => exact .endOfInputFails c rest

theorem leaf (parser : Leaf) : (Grammar.leaf parser).Explains rules (Parser.leaf parser) :=
  fun input _ => .leaf parser input

theorem chain {gs : List Grammar} {ps : List (Parser Outcome)}
    (parts : List.Forall₂ (Grammar.Explains rules) gs ps) (input : Text) :
    Parser.chain ps input = .unfinished ∨
      ∃ outcome, DerivesRow rules gs input outcome ∧
        Parser.chain ps input = Option.map (Match.chained input) <$> outcome := by
  induction parts generalizing input with
  | nil => exact .inr ⟨_, .nil input, rfl⟩
  | @cons g p gs ps head tail ih =>
    rw [Parser.chain]
    rcases head.ends input with same | ⟨same, derived⟩ | ⟨found, same, derived, -⟩ |
      ⟨cause, same, derived⟩ <;> rw [same]
    · exact .inl rfl
    · exact .inr ⟨_, .headFails derived, rfl⟩
    · simp only [done_bind]
      rcases ih found.rest with stuck | ⟨outcome, later, ran⟩
      · exact .inl (by rw [stuck]; rfl)
      · refine .inr ?_
        rw [ran]
        rcases later.consecutive.elim with ⟨_ | row, rfl, -⟩ | ⟨cause, rfl⟩
        · exact ⟨_, .tailFails derived later, rfl⟩
        · refine ⟨_, .cons derived later, ?_⟩
          simp [Match.chained, Match.trees_cons, Match.after]
        · exact ⟨_, .tailFaults derived later, rfl⟩
    · exact .inr ⟨_, .headFaults derived, rfl⟩

theorem sequence {first : Grammar} {others : List Grammar} {ps : List (Parser Outcome)}
    (parts : List.Forall₂ (Grammar.Explains rules) (first :: others) ps) :
    (Grammar.sequence first others).Explains rules (Parser.sequence ps) := by
  intro input finished
  rcases chain parts input with stuck | ⟨outcome, row, ran⟩
  · simp [Parser.sequence, stuck] at finished
  · rcases row.consecutive.elim with ⟨_ | row', rfl, consecutive⟩ | ⟨cause, rfl⟩
    · simpa [Parser.sequence, ran] using Derives.sequenceFails row
    · have taken := consumed_row (m := Outcome) (consecutive row' rfl)
      simpa [Parser.sequence, ran, Match.chained, taken, Match.joined] using Derives.sequence row
    · simpa [Parser.sequence, ran] using Derives.sequenceFaults row

theorem firstMatch {gs : List Grammar} {ps : List (Parser Outcome)}
    (candidates : List.Forall₂ (Grammar.Explains rules) gs ps) (input : Text) (index : Nat) :
    Parser.firstMatch input ps index = .unfinished ∨
      (Parser.firstMatch input ps index = .done none ∧
        DerivesChoice rules gs input (.done none)) ∨
      (∃ place found, Parser.firstMatch input ps index = .done (some (place, found)) ∧
        DerivesChoice rules gs input (.done (some found))) ∨
      ∃ cause, Parser.firstMatch input ps index = .fault cause ∧
        DerivesChoice rules gs input (.fault cause) := by
  induction candidates generalizing index with
  | nil => exact .inr (.inl ⟨rfl, .nil input⟩)
  | cons head tail ih =>
    rw [Parser.firstMatch]
    rcases head.ends input with same | ⟨same, derived⟩ | ⟨found, same, derived, -⟩ |
      ⟨cause, same, derived⟩ <;> rw [same]
    · exact .inl rfl
    · rcases ih (index + 1) with stuck | ⟨ran, later⟩ | ⟨place, found, ran, later⟩ |
        ⟨cause, ran, later⟩
      · exact .inl stuck
      · exact .inr (.inl ⟨ran, .later derived later⟩)
      · exact .inr (.inr (.inl ⟨place, found, ran, .later derived later⟩))
      · exact .inr (.inr (.inr ⟨cause, ran, .later derived later⟩))
    · exact .inr (.inr (.inl ⟨index, found, rfl, .here derived⟩))
    · exact .inr (.inr (.inr ⟨cause, rfl, .hereFaults derived⟩))

theorem choice {first : Grammar} {others : List Grammar} {ps : List (Parser Outcome)}
    (candidates : List.Forall₂ (Grammar.Explains rules) (first :: others) ps) :
    (Grammar.choice first others).Explains rules (Parser.choice ps) := by
  intro input finished
  rcases firstMatch candidates input 0 with stuck | ⟨ran, derived⟩ | ⟨place, found, ran, derived⟩ |
    ⟨cause, ran, derived⟩
  · simp [Parser.choice, stuck] at finished
  all_goals simpa [Parser.choice, ran] using Derives.choice derived

theorem iterate (explained : g.Explains rules p) {attempts : Nat} (count : Nat) {input : Text}
    (enough : input.length < attempts) :
    Parser.iterate p attempts count input = .unfinished ∨
      ∃ outcome, DerivesRepetition rules g input outcome ∧
        Parser.iterate p attempts count input = Match.repeated count input <$> outcome := by
  induction attempts generalizing count input with
  | zero => omega
  | succ attempts ih =>
    rw [Parser.iterate]
    rcases explained.ends input with same | ⟨same, derived⟩ | ⟨found, same, derived, split⟩ |
      ⟨cause, same, derived⟩ <;> rw [same]
    · exact .inl rfl
    · exact .inr ⟨_, .fails derived, rfl⟩
    · by_cases empty : found.parsed = []
      · refine .inr ⟨_, .empty derived empty, ?_⟩
        simp [empty, Match.repeated, Match.after]
      · have shorter := Match.rest_length_lt split empty
        have room : found.rest.length < attempts := shorter.trans_le (Nat.le_of_lt_succ enough)
        simp only [done_bind, List.isEmpty_iff, empty, if_false]
        rcases ih (count + 1) room with stuck | ⟨outcome, later, ran⟩
        · exact .inl (by rw [stuck]; rfl)
        · refine .inr ?_
          rw [ran]
          rcases later.consecutive.elim with ⟨row, rfl, -⟩ | ⟨cause, rfl⟩
          · refine ⟨_, .more derived empty later, ?_⟩
            simp [Match.repeated, Match.trees_cons, Match.after]
            omega
          · exact ⟨_, .moreFaults derived empty later, rfl⟩
    · exact .inr ⟨_, .faults derived, rfl⟩

theorem many (explained : g.Explains rules p) :
    (Grammar.many g).Explains rules (Parser.many p) := by
  intro input finished
  rcases explained.iterate 0 (Nat.lt_succ_self input.length) with stuck | ⟨outcome, rounds, ran⟩
  · simp [Parser.many, Parser.repetition, stuck] at finished
  · rcases rounds.consecutive.elim with ⟨_ | ⟨found, row⟩, rfl, consecutive⟩ | ⟨cause, rfl⟩
    · simpa [Parser.many, Parser.repetition, ran, Match.repeated] using Derives.manyNone rounds
    · have taken := consumed_row (m := Outcome) consecutive
      simpa [Parser.many, Parser.repetition, ran, Match.repeated, taken, Match.joined] using
        Derives.many rounds
    · simpa [Parser.many, Parser.repetition, ran] using Derives.manyFaults rounds

theorem many1 (explained : g.Explains rules p) :
    (Grammar.many1 g).Explains rules (Parser.many1 p) := by
  intro input finished
  rcases explained.iterate 0 (Nat.lt_succ_self input.length) with stuck | ⟨outcome, rounds, ran⟩
  · simp [Parser.many1, Parser.repetition, stuck] at finished
  · rcases rounds.consecutive.elim with ⟨_ | ⟨found, row⟩, rfl, consecutive⟩ | ⟨cause, rfl⟩
    · simpa [Parser.many1, Parser.repetition, ran, Match.repeated] using Derives.many1Fails rounds
    · have taken := consumed_row (m := Outcome) consecutive
      simpa [Parser.many1, Parser.repetition, ran, Match.repeated, taken, Match.joined] using
        Derives.many1 rounds
    · simpa [Parser.many1, Parser.repetition, ran] using Derives.many1Faults rounds

theorem pairs (item : value.Explains rules p) (gap : separator.Explains rules q) {attempts : Nat}
    {input : Text} (enough : input.length < attempts) :
    Parser.pairs p q attempts input = .unfinished ∨
      ∃ outcome, DerivesPairs rules value separator input outcome ∧
        Parser.pairs p q attempts input = Match.chained input <$> outcome := by
  induction attempts generalizing input with
  | zero => omega
  | succ attempts ih =>
    rw [Parser.pairs]
    rcases gap.ends input with same | ⟨same, between⟩ | ⟨before, same, between, left⟩ |
      ⟨cause, same, between⟩ <;> rw [same]
    · exact .inl rfl
    · exact .inr ⟨_, .separatorFails between, rfl⟩
    · simp only [done_bind]
      rcases item.ends before.rest with same | ⟨same, derived⟩ | ⟨found, same, derived, right⟩ |
        ⟨cause, same, derived⟩ <;> rw [same]
      · exact .inl rfl
      · exact .inr ⟨_, .valueFails between derived, rfl⟩
      · by_cases empty : before.parsed = [] ∧ found.parsed = []
        · refine .inr ⟨_, .bothEmpty between derived empty, ?_⟩
          simp [empty, Match.chained, Match.after]
        · have shorter := Match.pair_rest_length_lt left right empty
          have room : found.rest.length < attempts := shorter.trans_le (Nat.le_of_lt_succ enough)
          simp only [done_bind, Bool.and_eq_true, List.isEmpty_iff, empty, if_false]
          rcases ih room with stuck | ⟨outcome, later, ran⟩
          · exact .inl (by rw [stuck]; rfl)
          · refine .inr ?_
            rw [ran]
            rcases later.consecutive.elim with ⟨row, rfl, -⟩ | ⟨cause, rfl⟩
            · refine ⟨_, .more between derived empty later, ?_⟩
              simp [Match.chained, Match.trees_cons, Match.after]
            · exact ⟨_, .moreFaults between derived empty later, rfl⟩
      · exact .inr ⟨_, .valueFaults between derived, rfl⟩
    · exact .inr ⟨_, .separatorFaults between, rfl⟩

theorem sepBy (item : value.Explains rules p) (gap : separator.Explains rules q) :
    (Grammar.sepBy value separator).Explains rules (Parser.sepBy p q) := by
  intro input finished
  rcases item.ends input with same | ⟨same, derived⟩ | ⟨found, same, derived, split⟩ |
    ⟨cause, same, derived⟩
  · simp [Parser.sepBy, same] at finished
  · simpa [Parser.sepBy, same] using Derives.sepByNone derived
  · rcases pairs item gap (Nat.lt_succ_self found.rest.length) with stuck | ⟨outcome, later, ran⟩
    · simp [Parser.sepBy, same, stuck] at finished
    · rcases later.consecutive.elim with ⟨row, rfl, consecutive⟩ | ⟨cause, rfl⟩
      · have taken : (consumed input (Match.after found.rest row) : Outcome Text) = _ :=
          consumed_row (show Match.Consecutive input (found :: row) from ⟨split, consecutive⟩)
        simpa [Parser.sepBy, same, ran, Match.chained, taken, Match.joined, Match.trees_cons,
          Match.after] using Derives.sepBy derived later
      · simpa [Parser.sepBy, same, ran] using Derives.sepByPairFaults derived later
  · simpa [Parser.sepBy, same] using Derives.sepByFaults derived

theorem capture (explained : g.Explains rules p) :
    (Grammar.capture g).Explains rules (Parser.capture p) := by
  intro input finished
  rcases explained.ends input with same | ⟨same, derived⟩ | ⟨found, same, derived, -⟩ |
    ⟨cause, same, derived⟩
  · simp [Parser.capture, same] at finished
  · simpa [Parser.capture, same] using Derives.captureFails derived
  · simpa [Parser.capture, same, Match.captured] using Derives.capture derived
  · simpa [Parser.capture, same] using Derives.captureFaults derived

theorem action (explained : g.Explains rules p) (act : Action) :
    (Grammar.action g act).Explains rules (Parser.action p act) := by
  intro input finished
  rcases explained.ends input with same | ⟨same, derived⟩ | ⟨found, same, derived, -⟩ |
    ⟨cause, same, derived⟩
  · simp [Parser.action, same] at finished
  · simpa [Parser.action, same] using Derives.actionFails derived
  · cases acts : act found.tree with
    | ok tree => simpa [Parser.action, same, apply, acts] using Derives.action derived acts
    | error cause =>
      have broken : (Monitor.fault cause : Outcome (Option Tree)) = .fault cause := rfl
      simpa [Parser.action, same, apply, acts, broken] using Derives.actionFaults derived acts
  · simpa [Parser.action, same] using Derives.actionInnerFaults derived

theorem optional (explained : g.Explains rules p) :
    (Grammar.optional g).Explains rules (Parser.optional p) := by
  intro input finished
  rcases explained.ends input with same | ⟨same, derived⟩ | ⟨found, same, derived, -⟩ |
    ⟨cause, same, derived⟩
  · simp [Parser.optional, same] at finished
  · simpa [Parser.optional, same] using Derives.optionalNone derived
  · simpa [Parser.optional, same] using Derives.optional derived
  · simpa [Parser.optional, same] using Derives.optionalFaults derived

theorem label (name : Text) (explained : g.Explains rules p) :
    (Grammar.label name g).Explains rules (Parser.label name p) :=
  fun input finished => .label (explained input finished)

theorem wrapped (shown : Text) (explained : g.Explains rules p) :
    (Grammar.wrapped shown g).Explains rules p :=
  fun input finished => .wrapped (explained input finished)

end Grammar.Explains

namespace Grammar

mutual

theorem explained {rules : Rules} {call : Text → Parser Outcome}
    (calls : ∀ name, (rule name).Explains rules (call name)) (g : Grammar) :
    g.Explains rules (g.parser call) := by
  match g with
  | literal token => exact .literal token
  | char accepted => exact .char accepted
  | whitespace => exact .whitespace
  | endOfInput => exact .endOfInput
  | sequence first others =>
    exact .sequence (.cons (explained calls first) (explained_all calls others))
  | choice first others =>
    exact .choice (.cons (explained calls first) (explained_all calls others))
  | many inner => exact (explained calls inner).many
  | many1 inner => exact (explained calls inner).many1
  | sepBy value separator =>
    exact (explained calls value).sepBy (explained calls separator)
  | capture inner => exact (explained calls inner).capture
  | action inner act => exact (explained calls inner).action act
  | optional inner => exact (explained calls inner).optional
  | label name inner => exact (explained calls inner).label name
  | rule name => exact calls name
  | leaf parser => exact .leaf parser
  | wrapped shown inner => exact (explained calls inner).wrapped shown

theorem explained_all {rules : Rules} {call : Text → Parser Outcome}
    (calls : ∀ name, (rule name).Explains rules (call name)) (gs : List Grammar) :
    List.Forall₂ (Explains rules) gs (parsers call gs) := by
  match gs with
  | [] => exact .nil
  | g :: gs => exact .cons (explained calls g) (explained_all calls gs)

end

end Grammar

def Rules.calls (rules : Rules) (depth : Nat) : Text → Parser Outcome :=
  Grammar.call (fun name => pure (rules.lookup name)) depth

theorem Rules.calls_known {rules : Rules} {name : Text} {g : Grammar}
    (known : rules.lookup name = some g) (depth : Nat) (input : Text) :
    rules.calls (depth + 1) name input = g.parser (rules.calls depth) input := by
  simp only [calls, Grammar.call, known, pure_eq, done_bind]

theorem Rules.calls_unknown {rules : Rules} {name : Text} (unknown : rules.lookup name = none)
    (depth : Nat) (input : Text) : rules.calls (depth + 1) name input = .done none := by
  simp only [calls, Grammar.call, unknown, pure_eq, done_bind]

theorem Rules.explains_calls (rules : Rules) (depth : Nat) (name : Text) :
    (Grammar.rule name).Explains rules (rules.calls depth name) := by
  induction depth generalizing name with
  | zero => exact fun input finished => absurd rfl finished
  | succ depth ih =>
    intro input finished
    cases known : rules.lookup name with
    | none =>
      rw [calls_unknown known]
      exact .unknownRule known
    | some g =>
      rw [calls_known known] at finished ⊢
      exact .rule known (Grammar.explained ih g input finished)

theorem Grammar.explains_calls (rules : Rules) (depth : Nat) (g : Grammar) :
    g.Explains rules (g.parser (rules.calls depth)) :=
  explained (rules.explains_calls depth) g

theorem Grammar.parse_eq (rules : Rules) (g : Grammar) (input : Text) :
    g.parse rules input = g.parser (rules.calls (rules.depth input)) input := rfl

end Peg
