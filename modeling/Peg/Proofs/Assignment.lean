import Peg.Language.Assignment
import Peg.Proofs.Decimal.Literal

/-!
Assignments and their parser. A text starts with an assignment in one way at most, when the number
is read up to its end; the parser takes the assignment where there is one, and fails elsewhere.
-/
namespace Peg.Language

open Grammar Text

/-- A name, an equals sign and a number, with blanks on either side of the sign. -/
@[ext]
structure Assignment where
  first : Char
  others : Text
  before : Text
  after : Text
  number : Text
  letter : first.isAlpha = true
  plain : ∀ c ∈ others, c.isAlphanum = true
  left : Blank before
  right : Blank after
  digits : Decimal.DigitRun number

namespace Assignment

def name (a : Assignment) : Text := a.first :: a.others

def text (a : Assignment) : Text := a.name ++ a.before ++ '=' :: a.after ++ a.number

structure Starts (a : Assignment) (input rest : Text) : Prop where
  split : a.text ++ rest = input
  stops : ∀ c ∈ rest.head?, c.isDigit = false

variable {a b : Assignment} {input rest rest' : Text}

theorem text_append (a : Assignment) (rest : Text) :
    a.text ++ rest = a.name ++ (a.before ++ '=' :: (a.after ++ (a.number ++ rest))) := by
  simp [text]

theorem name_alphanum (a : Assignment) : ∀ c ∈ a.name, c.isAlphanum = true :=
  List.forall_mem_cons.mpr ⟨by simp [Char.isAlphanum, a.letter], a.plain⟩

theorem name_stops (a : Assignment) (tail : Text) :
    ∀ c ∈ (a.before ++ '=' :: tail).head?, c.isAlphanum = false := by
  have equals : ∀ c ∈ ('=' :: tail).head?, c.isAlphanum = false := by
    rintro c ⟨⟩
    decide
  exact forall_head_append (fun c member => not_alphanum_of_blank (a.left c member)) equals

theorem equals_solid (tail : Text) : Solid ('=' :: tail) := solid_cons (by decide) tail

theorem Starts.unique (one : Starts a input rest) (other : Starts b input rest') :
    a = b ∧ rest = rest' := by
  have same := one.split.trans other.split.symm
  rw [text_append, text_append] at same
  obtain ⟨name, same⟩ := run_unique a.name_alphanum b.name_alphanum (a.name_stops _) (b.name_stops _)
    same
  obtain ⟨before, same⟩ := run_unique a.left b.left (equals_solid _) (equals_solid _) same
  obtain ⟨after, same⟩ := run_unique a.right b.right (a.digits.solid _) (b.digits.solid _)
    (List.cons.inj same).2
  obtain ⟨number, same⟩ := run_unique a.digits.2 b.digits.2 one.stops other.stops same
  obtain ⟨first, others⟩ := List.cons.inj name
  exact ⟨Assignment.ext first others before after number, same⟩

end Assignment

open Assignment

variable {rules : Rules} {input rest others : Text} {first : Char}

theorem derives_identifier (letter : first.isAlpha = true)
    (plain : ∀ c ∈ others, c.isAlphanum = true) (stops : ∀ c ∈ rest.head?, c.isAlphanum = false) :
    Derives rules identifier (first :: others ++ rest)
      (.done (some ⟨first :: others, rest, some (.text (first :: others))⟩)) := by
  have head : Derives rules Grammar.letter (first :: (others ++ rest)) _ := .char _ _ _ letter
  have tail : Derives rules (many (choice Grammar.letter [digit])) (others ++ rest) _ :=
    .many_of_rounds (derives_chars .alphanum plain stops)
  have row : DerivesRow rules [Grammar.letter, many (choice Grammar.letter [digit])]
      (first :: others ++ rest) _ := .cons head (.cons tail (.nil _))
  have derived := Derives.capture_row row (by simp [Match.chars_parsed])
  rwa [Match.captured, if_neg (List.cons_ne_nil _ _)] at derived

theorem Assignment.Starts.derives {a : Assignment} (starts : Starts a input rest) :
    Derives rules assignment input
      (.done (some ⟨a.text, rest, some (.list [.text a.name, .text a.number])⟩)) := by
  obtain ⟨split, stops⟩ := starts
  rw [text_append] at split
  subst split
  have name : Derives rules identifier (a.name ++ _) (.done (some ⟨a.name, _, some (.text a.name)⟩)) :=
    derives_identifier a.letter a.plain (a.name_stops (a.after ++ (a.number ++ rest)))
  have before : Derives rules whitespace _ _ :=
    .whitespace a.before ('=' :: (a.after ++ (a.number ++ rest))) a.left (equals_solid _)
  have equals : Derives rules (token "=").silent ('=' :: (a.after ++ (a.number ++ rest))) _ :=
    derives_silent (List.cons_ne_nil '=' []) _
  have after : Derives rules whitespace _ _ :=
    .whitespace a.after (a.number ++ rest) a.right (a.digits.solid rest)
  have number : Derives rules (capture (many1 digit)) (a.number ++ rest) _ :=
    derives_capture_many1_chars (.char _) a.digits.2 stops a.digits.1
  have derived : Derives rules assignment (a.name ++ _) _ := .sequence
    (.cons name (.cons before (.cons equals (.cons after (.cons number (.nil _))))))
  simpa [Match.joined, Match.after, text] using derived

theorem identifier_or_fails (rules : Rules) (input : Text) :
    (∃ first others rest, first :: others ++ rest = input ∧ first.isAlpha = true ∧
      (∀ c ∈ others, c.isAlphanum = true) ∧ ∀ c ∈ rest.head?, c.isAlphanum = false) ∨
    Derives rules identifier input (.done none) := by
  have fails (start : Derives rules Grammar.letter input (.done none)) :
      Derives rules identifier input (.done none) :=
    .captureFails (.sequenceFails (.headFails start))
  cases input with
  | nil => exact .inr (fails (.charAtEnd _))
  | cons first tail =>
    by_cases letter : first.isAlpha = true
    · obtain ⟨others, rest, rfl, plain, stops⟩ := exists_run Char.isAlphanum tail
      exact .inl ⟨first, others, rest, rfl, letter, plain, stops⟩
    · exact .inr (fails (.charFails _ _ _ (Bool.eq_false_iff.mpr letter)))

theorem starts_or_fails (rules : Rules) (input : Text) :
    (∃ a rest, Starts a input rest) ∨ Derives rules assignment input (.done none) := by
  rcases identifier_or_fails rules input with ⟨first, others, left, rfl, letter, plain, stops⟩ | fails
  · have name : Derives rules identifier _ _ := derives_identifier letter plain stops
    have before : Derives rules whitespace left _ := .whitespace_of left
    by_cases sign : ['='] <+: trimStart left
    · obtain ⟨right, same⟩ := sign
      have equals : Derives rules (token "=").silent (trimStart left) _ :=
        same ▸ derives_silent (List.cons_ne_nil '=' []) right
      have after : Derives rules whitespace right _ := .whitespace_of right
      obtain ⟨number, rest, split, every, ends⟩ := exists_run Char.isDigit (trimStart right)
      by_cases empty : number = []
      · subst empty
        have none : Derives rules (capture (many1 digit)) ([] ++ rest) (.done none) :=
          .captureFails (derives_many1_chars_fails (.char _) ends)
        rw [split] at none
        exact .inr (.sequenceFails (.tailFails name (.tailFails before (.tailFails equals
          (.tailFails after (.headFails none))))))
      · let a : Assignment := ⟨first, others, left.takeWhile isBlank, right.takeWhile isBlank, number,
          letter, plain, blank_takeWhile left, blank_takeWhile right, empty, every⟩
        have whole : a.text ++ rest = first :: others ++ left := by
          calc a.text ++ rest
              = a.name ++ (a.before ++ '=' :: (a.after ++ (number ++ rest))) := a.text_append rest
            _ = a.name ++ (a.before ++ (['='] ++ right)) := by
                rw [split, blanks_append_trimStart]
                rfl
            _ = first :: others ++ left := by
                rw [same, blanks_append_trimStart]
                rfl
        exact .inl ⟨a, rest, whole, ends⟩
    · exact .inr (.sequenceFails (.tailFails name (.tailFails before (.headFails
        (derives_silent_fails sign)))))
  · exact .inr (.sequenceFails (.headFails fails))

/-- The parser succeeds on the texts that start with an assignment and fails on all others. There
is one such start at most: it is what is consumed, and the tree lists its name and its number. -/
theorem assignment_parse_iff (rules : Rules) (input : Text) :
    ((∃ found, assignment.parse rules input = .done (some found)) ↔ ∃ a rest, Starts a input rest) ∧
    (assignment.parse rules input = .done none ↔ ¬ ∃ a rest, Starts a input rest) ∧
    ∀ a rest, Starts a input rest →
      assignment.parse rules input =
        .done (some ⟨a.text, rest, some (.list [.text a.name, .text a.number])⟩) ∧
      ∀ b rest', Starts b input rest' → b = a ∧ rest' = rest := by
  rcases starts_or_fails rules input with ⟨a, rest, starts⟩ | fails
  · have known : ∃ a rest, Starts a input rest := ⟨a, rest, starts⟩
    have ran : assignment.parse rules input = _ := parse_eq_of_derives starts.derives
    have succeeded : assignment.parse rules input ≠ .done none := by
      rw [ran]
      exact nofun
    refine ⟨iff_of_true ⟨_, ran⟩ known, iff_of_false succeeded (not_not_intro known), ?_⟩
    intro b rest' also
    exact ⟨parse_eq_of_derives also.derives, fun c last one => one.unique also⟩
  · have ran := parse_eq_of_derives fails
    have bare : ¬ ∃ a rest, Starts a input rest := by
      rintro ⟨a, rest, starts⟩
      cases fails.unique starts.derives
    refine ⟨iff_of_false ?_ bare, iff_of_true ran bare, fun a rest starts => ?_⟩
    · rintro ⟨found, succeeded⟩
      rw [ran] at succeeded
      cases succeeded
    · exact absurd ⟨a, rest, starts⟩ bare

def width : Assignment where
  first := 'w'
  others := "idth".toList
  before := [' ']
  after := [' ']
  number := "42".toList
  letter := by decide
  plain := List.all_eq_true.mp (by decide)
  left := List.all_eq_true.mp (by decide)
  right := List.all_eq_true.mp (by decide)
  digits := ⟨by decide, List.all_eq_true.mp (by decide)⟩

theorem width_parsed : Starts width "width = 42\n".toList ['\n'] ∧
    assignment.parse [] "width = 42\n".toList = .done (some
      ⟨"width = 42".toList, ['\n'], some (.list [.text "width".toList, .text "42".toList])⟩) := by
  have starts : Starts width "width = 42\n".toList ['\n'] := ⟨by decide, by simp⟩
  exact ⟨starts, ((assignment_parse_iff [] _).2.2 width _ starts).1⟩

end Peg.Language
