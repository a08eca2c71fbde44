import Mathlib.Order.Filter.AtTopBot.Basic
import Peg.Language.Sexpr
import Peg.Proofs.Depth

/-!
A parse ends with what is derived, and with nothing else. A derivation is
finite, so that some depth brings all of its calls to an end, and with them the
loops of the combinators; by then the depth that a parse allows has done so too.
-/
namespace Peg

open Monitor Outcome Filter

theorem Grammar.parser_sequence {m : Type → Type} [Monitor m] (call : Text → Parser m)
    (first : Grammar) (others : List Grammar) :
    (sequence first others).parser call = Parser.sequence (parsers call (first :: others)) := rfl

theorem Grammar.parser_choice {m : Type → Type} [Monitor m] (call : Text → Parser m)
    (first : Grammar) (others : List Grammar) :
    (choice first others).parser call = Parser.choice (parsers call (first :: others)) := rfl

mutual

theorem Derives.runs {rules : Rules} {g : Grammar} {input : Text}
    {outcome : Outcome (Option Match)} (derived : Derives rules g input outcome) :
    ∀ᶠ depth in atTop, g.parser (rules.calls depth) input = outcome := by
  match derived with
  | .emptyToken _ => exact .of_forall fun depth => rfl
  | .token token rest nonempty =>
    refine .of_forall fun depth => ?_
    simp [Grammar.parser, Parser.literal, nonempty, Text.after?_eq_some_iff.mpr rfl]
  | .tokenFails token input differs =>
    have nonempty : token ≠ [] := fun empty => differs (empty ▸ List.nil_prefix)
    refine .of_forall fun depth => ?_
    simp [Grammar.parser, Parser.literal, nonempty, Text.after?_eq_none differs]
  | .char accepted c rest accepts =>
    refine .of_forall fun depth => ?_
    simp [Grammar.parser, Parser.char, accepts]
  | .charFails accepted c rest refuses =>
    refine .of_forall fun depth => ?_
    simp [Grammar.parser, Parser.char, refuses]
  | .charAtEnd _ => exact .of_forall fun depth => rfl
  | .whitespace blanks rest blank ends =>
    refine .of_forall fun depth => ?_
    simp [Grammar.parser, Parser.whitespace, Text.trimStart_append blank ends]
  | .endOfInput => exact .of_forall fun depth => rfl
  | .endOfInputFails c rest => exact .of_forall fun depth => rfl
  | .leaf parser input => exact .of_forall fun depth => rfl
  | @Derives.sequence _ first others input row parts =>
    have taken := consumed_row (m := Outcome) (parts.consecutive row rfl)
    filter_upwards [parts.runs] with depth ran
    simp [Grammar.parser_sequence, Parser.sequence, ran, Match.chained, taken, Match.joined]
  | .sequenceFails parts | .sequenceFaults parts =>
    filter_upwards [parts.runs] with depth ran
    simp [Grammar.parser_sequence, Parser.sequence, ran]
  | .choice candidates =>
    filter_upwards [candidates.runs 0] with depth ran
    obtain ⟨place, ran⟩ := ran
    rw [Grammar.parser_choice]
    rcases candidates.splits.elim with ⟨_ | found, rfl, -⟩ | ⟨cause, rfl⟩ <;>
      simp [Parser.choice, ran]
  | .manyNone rounds =>
    filter_upwards [rounds.runs 0 (Nat.lt_succ_self _)] with depth ran
    simp [Grammar.parser, Parser.many, Parser.repetition, ran, Match.repeated]
  | .many rounds =>
    have taken := consumed_row (m := Outcome) rounds.consecutive
    filter_upwards [rounds.runs 0 (Nat.lt_succ_self _)] with depth ran
    simp [Grammar.parser, Parser.many, Parser.repetition, ran, Match.repeated, taken, Match.joined]
  | .manyFaults rounds =>
    filter_upwards [rounds.runs 0 (Nat.lt_succ_self _)] with depth ran
    simp [Grammar.parser, Parser.many, Parser.repetition, ran]
  | .many1Fails rounds =>
    filter_upwards [rounds.runs 0 (Nat.lt_succ_self _)] with depth ran
    simp [Grammar.parser, Parser.many1, Parser.repetition, ran, Match.repeated]
  | .many1 rounds =>
    have taken := consumed_row (m := Outcome) rounds.consecutive
    filter_upwards [rounds.runs 0 (Nat.lt_succ_self _)] with depth ran
    simp [Grammar.parser, Parser.many1, Parser.repetition, ran, Match.repeated, taken, Match.joined]
  | .many1Faults rounds =>
    filter_upwards [rounds.runs 0 (Nat.lt_succ_self _)] with depth ran
    simp [Grammar.parser, Parser.many1, Parser.repetition, ran]
  | .sepByNone first | .sepByFaults first =>
    filter_upwards [first.runs] with depth ran
    simp [Grammar.parser, Parser.sepBy, ran]
  | @Derives.sepBy _ value separator input item row first later =>
    have consecutive : Match.Consecutive input (item :: row) :=
      ⟨splits_matched.mp first.splits, later.consecutive⟩
    have taken : (consumed input (Match.after item.rest row) : Outcome Text) = _ :=
      consumed_row consecutive
    filter_upwards [first.runs, later.runs (Nat.lt_succ_self _)] with depth ran pairs
    simp [Grammar.parser, Parser.sepBy, ran, pairs, Match.chained, taken, Match.joined,
      Match.trees_cons, Match.after]
  | .sepByPairFaults first later =>
    filter_upwards [first.runs, later.runs (Nat.lt_succ_self _)] with depth ran pairs
    simp [Grammar.parser, Parser.sepBy, ran, pairs]
  | .capture inside =>
    filter_upwards [inside.runs] with depth ran
    simp [Grammar.parser, Parser.capture, ran, Match.captured]
  | .captureFails inside | .captureFaults inside =>
    filter_upwards [inside.runs] with depth ran
    simp [Grammar.parser, Parser.capture, ran]
  | .action inside acts =>
    filter_upwards [inside.runs] with depth ran
    simp [Grammar.parser, Parser.action, ran, apply, acts]
  | .actionFaults inside breaks =>
    filter_upwards [inside.runs] with depth ran
    simp [Grammar.parser, Parser.action, ran, apply, breaks]
    rfl
  | .actionFails inside | .actionInnerFaults inside =>
    filter_upwards [inside.runs] with depth ran
    simp [Grammar.parser, Parser.action, ran]
  | .optional inside | .optionalNone inside | .optionalFaults inside =>
    filter_upwards [inside.runs] with depth ran
    simp [Grammar.parser, Parser.optional, ran]
  | .label inside => exact inside.runs
  | .wrapped inside => exact inside.runs
  | .rule known body =>
    obtain ⟨least, ran⟩ := eventually_atTop.mp body.runs
    filter_upwards [eventually_gt_atTop least] with depth deep
    obtain ⟨depth, rfl⟩ := Nat.exists_eq_add_one.mpr (Nat.zero_lt_of_lt deep)
    exact (Rules.calls_known known depth _).trans (ran depth (Nat.le_of_lt_succ deep))
  | .unknownRule unknown =>
    filter_upwards [eventually_gt_atTop 0] with depth positive
    obtain ⟨depth, rfl⟩ := Nat.exists_eq_add_one.mpr positive
    exact Rules.calls_unknown unknown depth _

theorem DerivesRow.runs {rules : Rules} {gs : List Grammar} {input : Text}
    {outcome : Outcome (Option (List Match))} (derived : DerivesRow rules gs input outcome) :
    ∀ᶠ depth in atTop, Parser.chain (Grammar.parsers (rules.calls depth) gs) input =
      Option.map (Match.chained input) <$> outcome := by
  match derived with
  | .nil _ => exact .of_forall fun depth => rfl
  | .headFails head | .headFaults head =>
    filter_upwards [head.runs] with depth ran
    simp [Grammar.parsers, Parser.chain, ran]
  | .cons head tail =>
    filter_upwards [head.runs, tail.runs] with depth ran later
    simp [Grammar.parsers, Parser.chain, ran, later, Match.chained, Match.trees_cons, Match.after]
  | .tailFails head tail | .tailFaults head tail =>
    filter_upwards [head.runs, tail.runs] with depth ran later
    simp [Grammar.parsers, Parser.chain, ran, later]

theorem DerivesChoice.runs {rules : Rules} {gs : List Grammar} {input : Text}
    {outcome : Outcome (Option Match)} (derived : DerivesChoice rules gs input outcome)
    (index : Nat) :
    ∀ᶠ depth in atTop, ∃ place,
      Parser.firstMatch input (Grammar.parsers (rules.calls depth) gs) index =
        Option.map (Prod.mk place) <$> outcome := by
  match derived with
  | .nil _ => exact .of_forall fun depth => ⟨index, rfl⟩
  | .here head | .hereFaults head =>
    filter_upwards [head.runs] with depth ran
    exact ⟨index, by simp [Grammar.parsers, Parser.firstMatch, ran]⟩
  | .later head tail =>
    filter_upwards [head.runs, tail.runs (index + 1)] with depth ran later
    obtain ⟨place, later⟩ := later
    exact ⟨place, by simp [Grammar.parsers, Parser.firstMatch, ran, later]⟩

theorem DerivesRepetition.runs {rules : Rules} {g : Grammar} {input : Text}
    {outcome : Outcome (List Match)} (derived : DerivesRepetition rules g input outcome)
    {attempts : Nat} (count : Nat) (enough : input.length < attempts) :
    ∀ᶠ depth in atTop, Parser.iterate (g.parser (rules.calls depth)) attempts count input =
      Match.repeated count input <$> outcome := by
  obtain ⟨attempts, rfl⟩ := Nat.exists_eq_add_one.mpr (Nat.zero_lt_of_lt enough)
  match derived with
  | .fails stop | .faults stop =>
    filter_upwards [stop.runs] with depth ran
    simp [Parser.iterate, ran, Match.repeated, Match.after]
  | .empty stop empty =>
    filter_upwards [stop.runs] with depth ran
    simp [Parser.iterate, ran, empty, Match.repeated, Match.after]
  | .more head nonempty tail =>
    have shorter := Match.rest_length_lt (splits_matched.mp head.splits) nonempty
    have room : List.length _ < attempts := shorter.trans_le (Nat.le_of_lt_succ enough)
    filter_upwards [head.runs, tail.runs (count + 1) room] with depth ran later
    simp [Parser.iterate, ran, nonempty, later, Match.repeated, Match.trees_cons, Match.after]
    omega
  | .moreFaults head nonempty tail =>
    have shorter := Match.rest_length_lt (splits_matched.mp head.splits) nonempty
    have room : List.length _ < attempts := shorter.trans_le (Nat.le_of_lt_succ enough)
    filter_upwards [head.runs, tail.runs (count + 1) room] with depth ran later
    simp [Parser.iterate, ran, nonempty, later]

theorem DerivesPairs.runs {rules : Rules} {value separator : Grammar} {input : Text}
    {outcome : Outcome (List Match)} (derived : DerivesPairs rules value separator input outcome)
    {attempts : Nat} (enough : input.length < attempts) :
    ∀ᶠ depth in atTop,
      Parser.pairs (value.parser (rules.calls depth)) (separator.parser (rules.calls depth))
        attempts input = Match.chained input <$> outcome := by
  obtain ⟨attempts, rfl⟩ := Nat.exists_eq_add_one.mpr (Nat.zero_lt_of_lt enough)
  match derived with
  | .separatorFails gap | .separatorFaults gap =>
    filter_upwards [gap.runs] with depth between
    simp [Parser.pairs, between, Match.chained, Match.after]
  | .valueFails gap item | .valueFaults gap item =>
    filter_upwards [gap.runs, item.runs] with depth between ran
    simp [Parser.pairs, between, ran, Match.chained, Match.after]
  | .bothEmpty gap item empty =>
    filter_upwards [gap.runs, item.runs] with depth between ran
    simp [Parser.pairs, between, ran, empty, Match.chained, Match.after]
  | .more gap item nonempty tail =>
    have shorter := Match.pair_rest_length_lt (splits_matched.mp gap.splits)
      (splits_matched.mp item.splits) nonempty
    have room : List.length _ < attempts := shorter.trans_le (Nat.le_of_lt_succ enough)
    filter_upwards [gap.runs, item.runs, tail.runs room] with depth between ran later
    simp [Parser.pairs, between, ran, nonempty, later, Match.chained, Match.trees_cons, Match.after]
  | .moreFaults gap item nonempty tail =>
    have shorter := Match.pair_rest_length_lt (splits_matched.mp gap.splits)
      (splits_matched.mp item.splits) nonempty
    have room : List.length _ < attempts := shorter.trans_le (Nat.le_of_lt_succ enough)
    filter_upwards [gap.runs, item.runs, tail.runs room] with depth between ran later
    simp [Parser.pairs, between, ran, nonempty, later]

end

namespace Grammar

theorem parse_eq_of_derives {rules : Rules} {g : Grammar} {input : Text}
    {outcome : Outcome (Option Match)} (derived : Derives rules g input outcome) :
    g.parse rules input = outcome := by
  obtain ⟨depth, ran⟩ := derived.runs.exists
  exact parse_eq_of_parser_eq ran derived.ne_unfinished

theorem derives_parse {rules : Rules} {g : Grammar} {input : Text}
    (finished : g.parse rules input ≠ .unfinished) :
    Derives rules g input (g.parse rules input) :=
  explains_calls rules _ g input finished

/-- The derivable end of a parse is the one that the parse comes to. -/
theorem derives_iff_parse_eq (rules : Rules) (g : Grammar) (input : Text)
    (outcome : Outcome (Option Match)) :
    Derives rules g input outcome ↔ g.parse rules input = outcome ∧ outcome ≠ .unfinished := by
  constructor
  · intro derived
    exact ⟨parse_eq_of_derives derived, derived.ne_unfinished⟩
  · intro ended
    obtain ⟨rfl, finished⟩ := ended
    exact derives_parse finished

theorem consumed_eq_breach_iff {whole rest : Text} :
    (consumed whole rest : Outcome Text) = .breach ↔ ¬ rest <:+ whole := by
  unfold consumed
  cases taken : Text.before? whole rest with
  | some front =>
    have suffix : rest <:+ whole := ⟨front, Text.before?_eq_some_iff.mp taken⟩
    exact iff_of_false nofun (not_not_intro suffix)
  | none =>
    refine iff_of_true rfl fun suffix => ?_
    obtain ⟨front, split⟩ := suffix
    rw [Text.before?_eq_some_iff.mpr split] at taken
    cases taken

/-- A match consumes a front of the input and leaves the rest of it. On the way, whatever
the run ends with and however deep it goes, `consumed` is given ends of its text only, as
anything else would be a breach, and nothing recovers from one. -/
theorem parse_consumes_front (rules : Rules) (g : Grammar) (input : Text) :
    (∀ found, g.parse rules input = .done (some found) → found.parsed ++ found.rest = input) ∧
    (∀ depth, g.parser (rules.calls depth) input ≠ .breach) ∧
    ∀ whole rest : Text, (consumed whole rest : Outcome Text) = .breach ↔ ¬ rest <:+ whole := by
  refine ⟨fun found ran => ?_, fun depth broken => ?_, fun whole rest => consumed_eq_breach_iff⟩
  · have finished : g.parse rules input ≠ .unfinished := by
      rw [ran]
      exact nofun
    have split := (derives_parse finished).splits
    rw [ran] at split
    exact splits_matched.mp split
  · have finished : g.parser (rules.calls depth) input ≠ .unfinished := by
      rw [broken]
      exact nofun
    exact (explains_calls rules depth g input finished).ne_breach broken

theorem sexpr_derives_atom : Derives Language.Sexpr.rules Language.Sexpr.expr "ab)".toList
    (.done (some ⟨"ab".toList, ")".toList, some (.text "ab".toList)⟩)) := by
  have one (c : Char) (rest : Text) (accepts : CharClass.accepts .letter c = true) :
      Derives Language.Sexpr.rules (choice letter [digit]) (c :: rest) _ :=
    .choice (.here (.char _ c rest accepts))
  have stop : Derives Language.Sexpr.rules (choice letter [digit]) [')'] (.done none) :=
    .choice (.later (.charFails .letter ')' [] (by decide))
      (.later (.charFails .digit ')' [] (by decide)) (.nil _)))
  have rounds : DerivesRepetition Language.Sexpr.rules (choice letter [digit]) "ab)".toList _ :=
    .more (one 'a' _ (by decide)) (by decide) (.more (one 'b' _ (by decide)) (by decide)
      (.fails stop))
  exact .choice (.here (.capture (.many1 rounds)))

theorem sexpr_consumes_front :
    Language.Sexpr.expr.parse Language.Sexpr.rules "ab)".toList =
      .done (some ⟨"ab".toList, ")".toList, some (.text "ab".toList)⟩) ∧
    "ab".toList ++ ")".toList = "ab)".toList := by
  have ran := parse_eq_of_derives sexpr_derives_atom
  exact ⟨ran, (parse_consumes_front _ _ _).1 _ ran⟩

end Grammar
end Peg
