import Peg.Proofs.Derivation.Rows
import Peg.Proofs.Text.Run

/-!
Scanning at the front of a text. A repeated parser of single characters takes the longest
run of its characters, and white space is the longest run of blanks. A symbol may stand between
blanks, as the operators of a chain do.
-/
namespace Peg

open Grammar Outcome

variable {rules : Rules}

namespace Match

def chars (rest : Text) : (run : Text) → List Match
  | [] => []
  | c :: run => ⟨[c], run ++ rest, some (.text [c])⟩ :: chars rest run

theorem chars_parsed (rest run : Text) : (chars rest run).flatMap (·.parsed) = run := by
  induction run with
  | nil => rfl
  | cons c run ih => rw [chars, List.flatMap_cons, ih, List.singleton_append]

theorem chars_after (rest run : Text) : after (run ++ rest) (chars rest run) = rest := by
  induction run with
  | nil => rfl
  | cons c run ih => exact ih

theorem chars_trees (rest run : Text) :
    (chars rest run).filterMap (·.tree) = run.map fun c => Tree.text [c] := by
  induction run with
  | nil => rfl
  | cons c run ih =>
    rw [chars, trees_cons, ih]
    rfl

theorem joined_chars (rest run : Text) : joined (run ++ rest) (chars rest run) =
    ⟨run, rest, some (.list (run.map fun c => .text [c]))⟩ := by
  rw [joined, chars_parsed, chars_after, chars_trees]

end Match

/-- A grammar that takes the single characters which pass a test. -/
structure Grammar.Picks (rules : Rules) (g : Grammar) (test : Char → Bool) : Prop where
  takes : ∀ c rest, test c = true →
    Derives rules g (c :: rest) (.done (some ⟨[c], rest, some (.text [c])⟩))
  refuses : ∀ rest : Text, (∀ c ∈ rest.head?, test c = false) → Derives rules g rest (.done none)

theorem Grammar.Picks.char (accepted : CharClass) :
    Picks rules (.char accepted) accepted.accepts where
  takes := .char accepted
  refuses rest other := by
    cases rest with
    | nil => exact .charAtEnd accepted
    | cons c rest => exact .charFails accepted c rest (other c rfl)

section

variable {g h : Grammar} {test test' : Char → Bool} {run rest : Text}

theorem Grammar.Picks.choice (first : Picks rules g test) (second : Picks rules h test') :
    Picks rules (.choice g [h]) fun c => test c || test' c where
  takes c rest passes := by
    by_cases here : test c = true
    · exact .choice (.here (first.takes c rest here))
    · have refused := first.refuses (c :: rest) (by simpa using here)
      exact .choice (.later refused (.here (second.takes c rest (by simpa [here] using passes))))
  refuses rest other := by
    simp only [Bool.or_eq_false_iff] at other
    have left := first.refuses rest fun c front => (other c front).1
    have right := second.refuses rest fun c front => (other c front).2
    exact .choice (.later left (.later right (.nil rest)))

theorem Grammar.Picks.alphanum : Picks rules (.choice letter [digit]) Char.isAlphanum :=
  .choice (.char _) (.char _)

theorem derives_chars (picks : Picks rules g test) (accepts : ∀ c ∈ run, test c = true)
    (stops : ∀ c ∈ rest.head?, test c = false) :
    DerivesRepetition rules g (run ++ rest) (.done (Match.chars rest run)) := by
  induction run with
  | nil => exact .fails (picks.refuses rest stops)
  | cons c run ih =>
    obtain ⟨here, later⟩ := List.forall_mem_cons.mp accepts
    exact .more (picks.takes c (run ++ rest) here) (List.cons_ne_nil c []) (ih later)

theorem derives_many1_chars (picks : Picks rules g test) (accepts : ∀ c ∈ run, test c = true)
    (stops : ∀ c ∈ rest.head?, test c = false) (nonempty : run ≠ []) :
    Derives rules (.many1 g) (run ++ rest)
      (.done (some ⟨run, rest, some (.list (run.map fun c => .text [c]))⟩)) := by
  have rounds := derives_chars picks accepts stops
  rw [← Match.joined_chars]
  cases run with
  | nil => exact absurd rfl nonempty
  | cons c run => exact .many1 rounds

theorem derives_many1_chars_fails (picks : Picks rules g test)
    (stops : ∀ c ∈ rest.head?, test c = false) : Derives rules (.many1 g) rest (.done none) := by
  have rounds : DerivesRepetition rules g ([] ++ rest) _ :=
    derives_chars picks (List.forall_mem_nil _) stops
  exact .many1Fails rounds

theorem derives_capture_many1_chars (picks : Picks rules g test)
    (accepts : ∀ c ∈ run, test c = true) (stops : ∀ c ∈ rest.head?, test c = false)
    (nonempty : run ≠ []) :
    Derives rules (.capture (.many1 g)) (run ++ rest) (.done (some ⟨run, rest, some (.text run)⟩)) := by
  have derived := Derives.capture (derives_many1_chars picks accepts stops nonempty)
  rwa [Match.captured, if_neg nonempty] at derived

theorem derives_capture_many_chars (picks : Picks rules g test)
    (accepts : ∀ c ∈ run, test c = true) (stops : ∀ c ∈ rest.head?, test c = false) :
    Derives rules (.capture (.many g)) (run ++ rest)
      (.done (some ⟨run, rest, Match.captured run⟩)) := by
  have derived := Derives.capture (.many_of_rounds (derives_chars picks accepts stops))
  rwa [Match.chars_parsed, Match.chars_after] at derived

end

theorem Derives.whitespace_matched {input : Text} {found : Match}
    (derived : Derives rules .whitespace input (.done (some found))) :
    found.parsed.Blank ∧ found.rest.Solid ∧ found.tree = none := by
  cases derived with
  | whitespace blanks rest blank ends => exact ⟨blank, ends, rfl⟩

/-- One of the symbols between blanks, with the symbol for its tree. -/
def Grammar.spaced (symbols : String) : Grammar :=
  (sequence whitespace [oneOf symbols, whitespace]).action .first

section

variable {symbols : String} {rest : Text}

theorem derives_spaced {before after : Text} {c : Char} (left : before.Blank)
    (member : c ∈ symbols.toList) (clear : Text.isBlank c = false) (right : after.Blank)
    (solid : rest.Solid) :
    Derives rules (spaced symbols) (before ++ c :: after ++ rest)
      (.done (some ⟨before ++ c :: after, rest, some (.text [c])⟩)) := by
  have gap : Derives rules whitespace (before ++ c :: (after ++ rest)) _ :=
    .whitespace before (c :: (after ++ rest)) left (Text.solid_cons clear _)
  have symbol : Derives rules (oneOf symbols) (c :: (after ++ rest)) _ :=
    .char (.oneOf symbols.toList) c (after ++ rest) (List.elem_eq_true_of_mem member)
  have tail : Derives rules whitespace (after ++ rest) _ := .whitespace after rest right solid
  have derived : Derives rules (spaced symbols) (before ++ c :: (after ++ rest))
      (.done (some ⟨before ++ ([c] ++ (after ++ [])), rest, some (.text [c])⟩)) :=
    .action (.sequence (.cons gap (.cons symbol (.cons tail (.nil _))))) rfl
  simpa only [List.append_nil, List.append_assoc, List.cons_append, List.nil_append] using derived

theorem derives_spaced_fails (other : ∀ c ∈ (Text.trimStart rest).head?, c ∉ symbols.toList) :
    Derives rules (spaced symbols) rest (.done none) := by
  have symbol : Derives rules (oneOf symbols) (Text.trimStart rest) (.done none) := by
    match shape : Text.trimStart rest with
    | [] => exact .charAtEnd _
    | c :: tail =>
      rw [shape] at other
      exact .charFails _ c tail (by simpa [CharClass.accepts] using other c rfl)
  exact .actionFails (.sequenceFails (.tailFails (.whitespace_of rest) (.headFails symbol)))

end

end Peg
