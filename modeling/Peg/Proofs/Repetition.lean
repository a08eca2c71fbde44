import Peg.Proofs.Algebra
import Peg.Proofs.Derivation.Rows

/-!
Repetition takes all it can get and gives nothing back. It stops where its parser fails or matches
nothing, and there it would stop again; so repeating a repetition adds nothing but a list around
its tree. Where its parser matches something at first, a repetition that wants one match at least
has it, unless a later match is cut off.
-/
namespace Peg

open Grammar Outcome

variable {rules : Rules} {p : Grammar} {input : Text}

/-- A parser that fails or matches nothing, which is no round of a repetition. -/
def Grammar.Idle (rules : Rules) (p : Grammar) (input : Text) : Prop :=
  p.parse rules input = .done none ∨
    ∃ found, p.parse rules input = .done (some found) ∧ found.parsed = []

theorem Grammar.idle_iff_derives :
    Idle rules p input ↔ DerivesRepetition rules p input (.done []) := by
  constructor
  · rintro (stop | ⟨found, stop, empty⟩)
    · exact .fails (derives_of_done stop)
    · exact .empty (derives_of_done stop) empty
  · intro rounds
    cases rounds with
    | fails stop => exact .inl (parse_eq_of_derives stop)
    | empty stop empty => exact .inr ⟨_, parse_eq_of_derives stop, empty⟩

theorem DerivesRepetition.stops {row : List Match}
    (rounds : DerivesRepetition rules p input (.done row)) :
    DerivesRepetition rules p (Match.after input row) (.done []) := by
  induction row generalizing input with
  | nil => exact rounds
  | cons found row ih =>
    cases rounds with
    | more head nonempty tail => exact ih tail

theorem DerivesRepetition.parsed_eq_nil_iff {row : List Match}
    (rounds : DerivesRepetition rules p input (.done row)) :
    row.flatMap (·.parsed) = [] ↔ row = [] := by
  cases rounds with
  | fails | empty => simp
  | more head nonempty tail => simp [nonempty]

theorem Derives.many_matched {found : Match}
    (derived : Derives rules (.many p) input (.done (some found))) :
    ∃ row, DerivesRepetition rules p input (.done row) ∧ found =
      ⟨row.flatMap (·.parsed), Match.after input row,
        if row = [] then none else some (.list (row.filterMap (·.tree)))⟩ := by
  cases derived with
  | manyNone rounds => exact ⟨[], rounds, rfl⟩
  | many rounds => exact ⟨_, rounds, rfl⟩

theorem Derives.many1_matched_iff {found : Match} :
    Derives rules (.many1 p) input (.done (some found)) ↔
      Derives rules (.many p) input (.done (some found)) ∧ found.parsed ≠ [] := by
  constructor
  · intro derived
    cases derived with
    | many1 rounds =>
      exact ⟨.many rounds, mt rounds.parsed_eq_nil_iff.mp (List.cons_ne_nil _ _)⟩
  · rintro ⟨derived, nonempty⟩
    cases derived with
    | manyNone rounds => exact absurd rfl nonempty
    | many rounds => exact .many1 rounds

theorem Derives.many1_fails_iff :
    Derives rules (.many1 p) input (.done none) ↔ DerivesRepetition rules p input (.done []) := by
  constructor
  · intro derived
    cases derived with
    | many1Fails rounds => exact rounds
  · exact .many1Fails

section

variable {found : Match} (ran : (many p).parse rules input = .done (some found))
include ran

theorem Grammar.many_stops : Idle rules p found.rest := by
  obtain ⟨row, rounds, rfl⟩ := (derives_of_done ran).many_matched
  exact idle_iff_derives.mpr rounds.stops

theorem Grammar.many_stays :
    (many p).parse rules found.rest = .done (some (.empty found.rest)) := by
  have rounds := idle_iff_derives.mp (many_stops ran)
  exact parse_eq_of_derives (.manyNone rounds)

theorem Grammar.many_many :
    (found.parsed = [] ∧ (many (many p)).parse rules input = .done (some (.empty input))) ∨
      found.parsed ≠ [] ∧ ∃ tree, found.tree = some tree ∧ (many (many p)).parse rules input =
        .done (some ⟨found.parsed, found.rest, some (.list [tree])⟩) := by
  have once := derives_of_done ran
  obtain ⟨row, rounds, rfl⟩ := once.many_matched
  by_cases empty : row = []
  · subst empty
    exact .inl ⟨rfl, parse_eq_of_derives (.manyNone (.empty once rfl))⟩
  · have nonempty := mt rounds.parsed_eq_nil_iff.mp empty
    have stop : DerivesRepetition rules (.many p) (Match.after input row) (.done []) :=
      .empty (.manyNone rounds.stops) rfl
    have twice := parse_eq_of_derives (.many (.more once nonempty stop))
    rw [if_neg empty]
    refine .inr ⟨nonempty, _, rfl, ?_⟩
    simpa [Match.joined, Match.after, empty] using twice

end

theorem Grammar.many_then {all : Match}
    (both : (sequence (many p) [p]).parse rules input = .done (some all)) :
    ∃ found last, (many p).parse rules input = .done (some found) ∧
      p.parse rules found.rest = .done (some last) ∧ last.parsed = [] ∧
      all.parsed = found.parsed := by
  obtain ⟨row, parts, rfl⟩ := (derives_of_done both).sequence_matched
  obtain ⟨found, _, rfl, head, parts⟩ := parts.cons_matched
  obtain ⟨last, _, rfl, next, parts⟩ := parts.cons_matched
  obtain rfl := parts.nil_matched
  have ran := parse_eq_of_derives head
  have matched := parse_eq_of_derives next
  have empty : last.parsed = [] := by
    rcases many_stops ran with stop | ⟨idle, stop, empty⟩
    · rw [matched] at stop
      cases stop
    · rw [matched] at stop
      cases stop
      exact empty
  exact ⟨found, last, ran, matched, empty, by simp [Match.joined, empty]⟩

theorem Parser.many_eq_optional (p : Parser Outcome) (input : Text) :
    Parser.many p input = Parser.optional (Parser.many1 p) input := by
  unfold Parser.many Parser.optional Parser.many1
  rcases Parser.repetition p input with found | _ | _ | _
  · by_cases none : found.count = 0
    · simp [none]
    · simp only [none, Monitor.note_plain, done_bind, if_false]
      rcases (Monitor.consumed input found.rest : Outcome Text) with _ | _ | _ | _ <;> rfl
  all_goals rfl

theorem Parser.optional_eq_choice (p : Parser Outcome) (input : Text) :
    Parser.optional p input = Parser.choice [p, Parser.literal []] input := by
  have token : Parser.literal [] input = (.done (some (.empty input)) : Outcome (Option Match)) := rfl
  rw [Parser.choice_cons, Parser.choice_cons, Parser.choice_nil, orElse_none, token]
  unfold Parser.optional
  rcases p input with (_ | _) | _ | _ | _ <;> rfl

theorem Grammar.many1_fails_iff :
    (many1 p).parse rules input = .done none ↔ Idle rules p input := by
  rw [idle_iff_derives, ← Derives.many1_fails_iff]
  exact ⟨derives_of_done, parse_eq_of_derives⟩

theorem Grammar.many1_succeeds_iff :
    (∃ found, (many1 p).parse rules input = .done (some found)) ↔
      ∃ first later, p.parse rules input = .done (some first) ∧ first.parsed ≠ [] ∧
        (many p).parse rules first.rest = .done (some later) := by
  constructor
  · rintro ⟨found, ran⟩
    have derived := derives_of_done ran
    cases derived with
    | many1 rounds =>
      cases rounds with
      | more head nonempty tail =>
        have later := parse_eq_of_derives (.many_of_rounds tail)
        exact ⟨_, _, parse_eq_of_derives head, nonempty, later⟩
  · rintro ⟨first, later, head, nonempty, tail⟩
    obtain ⟨row, rounds, -⟩ := (derives_of_done tail).many_matched
    exact ⟨_, parse_eq_of_derives (.many1 (.more (derives_of_done head) nonempty rounds))⟩

theorem Grammar.exists_rounds
    (answers : ∀ text, ∃ result, p.parse rules text = .done result) (input : Text) :
    ∃ row, DerivesRepetition rules p input (.done row) := by
  induction size : input.length using Nat.strong_induction_on generalizing input with
  | _ n shorter =>
    subst size
    obtain ⟨_ | found, ran⟩ := answers input
    · exact ⟨[], .fails (derives_of_done ran)⟩
    · have head := derives_of_done ran
      by_cases empty : found.parsed = []
      · exact ⟨[], .empty head empty⟩
      · have less := Match.rest_length_lt (splits_matched.mp head.splits) empty
        obtain ⟨row, tail⟩ := shorter _ less found.rest rfl
        exact ⟨found :: row, .more head empty tail⟩

/-- What comes of repeating a parser on a text. A repetition that wants one match at least has it
when the first match consumes something and the repetition behind that match comes to an end
without being cut off; with a parser that has an answer for every text, it always does. -/
structure Grammar.Repeats (rules : Rules) (p : Grammar) (input : Text) : Prop where
  stops : ∀ found, (many p).parse rules input = .done (some found) ∨
      (many1 p).parse rules input = .done (some found) →
    Idle rules p found.rest ∧ (many p).parse rules found.rest = .done (some (.empty found.rest))
  keeps : ∀ all, (sequence (many p) [p]).parse rules input = .done (some all) →
    ∃ found last, (many p).parse rules input = .done (some found) ∧
      p.parse rules found.rest = .done (some last) ∧ last.parsed = [] ∧ all.parsed = found.parsed
  once : ∀ found, (many p).parse rules input = .done (some found) →
    (found.parsed = [] ∧ (many (many p)).parse rules input = .done (some (.empty input))) ∨
      found.parsed ≠ [] ∧ ∃ tree, found.tree = some tree ∧ (many (many p)).parse rules input =
        .done (some ⟨found.parsed, found.rest, some (.list [tree])⟩)
  eq_optional : (many p).parse rules input = (optional (many1 p)).parse rules input
  eq_choice : (many p).parse rules input = (choice (many1 p) [literal []]).parse rules input
  fails_iff : (many1 p).parse rules input = .done none ↔ Idle rules p input
  succeeds_iff : (∃ found, (many1 p).parse rules input = .done (some found)) ↔
    ∃ first later, p.parse rules input = .done (some first) ∧ first.parsed ≠ [] ∧
      (many p).parse rules first.rest = .done (some later)
  succeeds_iff_of_answers : (∀ text, ∃ result, p.parse rules text = .done result) →
    ((∃ found, (many1 p).parse rules input = .done (some found)) ↔
      ∃ first, p.parse rules input = .done (some first) ∧ first.parsed ≠ [])
  parsed_ne_nil : ∀ found, (many1 p).parse rules input = .done (some found) → found.parsed ≠ []

namespace Grammar

theorem parse_repeats (rules : Rules) (p : Grammar) (input : Text) : Repeats rules p input := by
  have some_many {found : Match} (ran : (many1 p).parse rules input = .done (some found)) :
      (many p).parse rules input = .done (some found) :=
    parse_eq_of_derives (Derives.many1_matched_iff.mp (derives_of_done ran)).1
  constructor
  case stops =>
    intro found ran
    have ran : (many p).parse rules input = .done (some found) := ran.elim id some_many
    exact ⟨many_stops ran, many_stays ran⟩
  case keeps => exact fun all => many_then
  case once => exact fun found ran => many_many ran
  case eq_optional => exact Parser.many_eq_optional _ input
  case eq_choice => exact (Parser.many_eq_optional _ input).trans (Parser.optional_eq_choice _ input)
  case fails_iff => exact many1_fails_iff
  case succeeds_iff => exact many1_succeeds_iff
  case succeeds_iff_of_answers =>
    intro answers
    rw [many1_succeeds_iff]
    refine exists_congr fun first => ?_
    obtain ⟨row, rounds⟩ := exists_rounds answers first.rest
    have later := parse_eq_of_derives (.many_of_rounds rounds)
    exact ⟨fun ⟨_, head, nonempty, _⟩ => ⟨head, nonempty⟩,
      fun ⟨head, nonempty⟩ => ⟨_, head, nonempty, later⟩⟩
  case parsed_ne_nil => exact fun found ran => (Derives.many1_matched_iff.mp (derives_of_done ran)).2

def interrupting : Grammar := choice (token "a") [(token "b").action (.fail .badAction)]

/-- A first match alone is not enough: the second one is cut off here, and the repetition with it. -/
theorem interrupting_not_repeated :
    interrupting.parse [] "ab".toList =
      .done (some ⟨"a".toList, "b".toList, some (.text "a".toList)⟩) ∧
    (many1 interrupting).parse [] "ab".toList = .fault .badAction ∧
    ¬ ((∃ found, (many1 interrupting).parse [] "ab".toList = .done (some found)) ↔
      ∃ first, interrupting.parse [] "ab".toList = .done (some first) ∧ first.parsed ≠ []) := by
  have first : Derives [] interrupting "ab".toList _ :=
    .choice (.here (.token ['a'] ['b'] (List.cons_ne_nil _ _)))
  have second : Derives [] interrupting "b".toList (.fault .badAction) :=
    .choice (.later (.tokenFails ['a'] ['b'] (by decide))
      (.hereFaults (.actionFaults (.token ['b'] [] (List.cons_ne_nil _ _)) rfl)))
  have cut : Derives [] (many1 interrupting) "ab".toList (.fault .badAction) :=
    .many1Faults (.moreFaults first (List.cons_ne_nil _ _) (.faults second))
  have matched := parse_eq_of_derives first
  have broken := parse_eq_of_derives cut
  refine ⟨matched, broken, fun law => ?_⟩
  obtain ⟨found, ran⟩ := law.mpr ⟨_, matched, List.cons_ne_nil _ _⟩
  rw [broken] at ran
  cases ran

end Grammar
end Peg
