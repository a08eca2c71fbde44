import Peg.Decimal.Reader
import Peg.Proofs.Scan

/-!
Decimal literals: digits, maybe with a point and more digits, maybe with a minus.
Each of them is read as a float. The parsers of their parts take the longest
literal at the front of a text, and fail where there is no digit.
-/
namespace Peg.Decimal

def DigitRun (text : Text) : Prop := text ≠ [] ∧ ∀ c ∈ text, c.isDigit = true

inductive Unsigned : Text → Prop
  | whole {digits} (all : DigitRun digits) : Unsigned digits
  | fraction {whole part} (before : DigitRun whole) (behind : DigitRun part) :
      Unsigned (whole ++ '.' :: part)

inductive Signed : Text → Prop
  | plain {text} (unsigned : Unsigned text) : Signed text
  | minus {text} (unsigned : Unsigned text) : Signed ('-' :: text)

theorem DigitRun.isDigits {text : Text} (all : DigitRun text) : isDigits text = true := by
  obtain ⟨nonempty, digit⟩ := all
  simpa [Decimal.isDigits, nonempty] using digit

theorem Unsigned.first_digit {text : Text} (literal : Unsigned text) :
    ∃ c tail, text = c :: tail ∧ c.isDigit = true := by
  have digits : ∀ {whole : Text}, DigitRun whole → ∃ c tail, whole = c :: tail ∧ c.isDigit = true := by
    intro whole all
    obtain ⟨nonempty, digit⟩ := all
    obtain ⟨c, tail, rfl⟩ := List.exists_cons_of_ne_nil nonempty
    exact ⟨c, tail, rfl, digit c List.mem_cons_self⟩
  cases literal with
  | whole all => exact digits all
  | fraction before behind =>
    obtain ⟨c, tail, rfl, digit⟩ := digits before
    exact ⟨c, _, rfl, digit⟩

theorem DigitRun.solid {text : Text} (all : DigitRun text) (rest : Text) :
    Text.Solid (text ++ rest) := by
  obtain ⟨c, tail, rfl, digit⟩ := (Unsigned.whole all).first_digit
  exact Text.solid_cons (Text.not_blank_of_digit digit) _

theorem Unsigned.not_minus {text : Text} (literal : Unsigned text) (rest : Text) :
    ∀ c ∈ (text ++ rest).head?, c ≠ '-' := by
  obtain ⟨c, tail, rfl, digit⟩ := literal.first_digit
  rintro d here rfl
  cases here
  cases digit

theorem Signed.first {text : Text} (literal : Signed text) :
    ∃ c tail, text = c :: tail ∧ (c = '-' ∨ c.isDigit = true) := by
  cases literal with
  | plain unsigned =>
    obtain ⟨c, tail, same, digit⟩ := unsigned.first_digit
    exact ⟨c, tail, same, .inr digit⟩
  | minus => exact ⟨_, _, rfl, .inl rfl⟩

theorem exists_unsignedFloat? {text : Text} (literal : Unsigned text) :
    ∃ x, unsignedFloat? text = some x := by
  cases literal with
  | whole all =>
    obtain ⟨nonempty, digit⟩ := all
    have split := takeWhile_run digit [] (by simp)
    rw [List.append_nil] at split
    simp [unsignedFloat?, split, nonempty, exponent?]
  | @fraction whole part before behind =>
    obtain ⟨nonempty, digit⟩ := before
    have split := takeWhile_run digit ('.' :: part) (by simp)
    have tail := takeWhile_run behind.2 [] (by simp)
    rw [List.append_nil] at tail
    simp [unsignedFloat?, split, tail, nonempty, exponent?]

theorem splitSign_digit {c : Char} (digit : c.isDigit = true) (text : Text) :
    splitSign (c :: text) = (false, c :: text) := by
  unfold splitSign
  split
  · next same =>
    cases same
    cases digit
  · next same =>
    cases same
    cases digit
  · rfl

theorem exists_float? {text : Text} (literal : Signed text) : ∃ x, float? text = some x := by
  have reads : ∀ {unsigned : Text} (negative : Bool), Unsigned unsigned →
      ∃ x, (((named? unsigned).or (unsignedFloat? unsigned)).map
        fun x => if negative then -x else x) = some x := by
    intro unsigned negative literal
    obtain ⟨x, read⟩ := exists_unsignedFloat? literal
    rw [read]
    cases named? unsigned <;> exact ⟨_, rfl⟩
  cases literal with
  | plain unsigned =>
    obtain ⟨c, tail, rfl, digit⟩ := unsigned.first_digit
    rw [float?, splitSign_digit digit]
    exact reads false unsigned
  | minus unsigned => exact reads true unsigned

open Grammar

variable {rules : Rules}

theorem derives_minus (rules : Rules) (rest : Text) :
    Derives rules (optional (oneOf "-")) ('-' :: rest)
      (.done (some ⟨['-'], rest, some (.text ['-'])⟩)) :=
  .optional (.char _ '-' rest (by decide))

theorem derives_no_minus (rules : Rules) {input : Text} (other : ∀ c ∈ input.head?, c ≠ '-') :
    Derives rules (optional (oneOf "-")) input (.done (some (.empty input))) := by
  refine .optionalNone ?_
  cases input with
  | nil => exact .charAtEnd _
  | cons c rest => exact .charFails _ c rest (by simp [CharClass.accepts, other c rfl])

def parts : List Grammar := [many1 digit, optional (sequence (token ".") [many1 digit])]

def Takes (rules : Rules) (text rest : Text) : Prop :=
  ∃ row, DerivesRow rules parts (text ++ rest) (.done (some row)) ∧ row.flatMap (·.parsed) = text

theorem takes_whole {digits rest : Text} (all : DigitRun digits)
    (stops : ∀ c ∈ rest.head?, c.isDigit = false)
    (bare : ∀ c tail, rest = '.' :: c :: tail → c.isDigit = false) : Takes rules digits rest := by
  obtain ⟨nonempty, digit⟩ := all
  have first : Derives rules (many1 Grammar.digit) (digits ++ rest) _ :=
    derives_many1_chars (.char _) digit stops nonempty
  have none : Derives rules (sequence (token ".") [many1 Grammar.digit]) rest (.done none) := by
    by_cases point : ['.'] <+: rest
    · obtain ⟨tail, rfl⟩ := point
      refine .sequenceFails (.tailFails (.token ['.'] tail (List.cons_ne_nil _ _)) (.headFails ?_))
      refine derives_many1_chars_fails (.char _) fun c here => ?_
      obtain ⟨behind, rfl⟩ := List.head?_eq_some_iff.mp here
      exact bare c behind rfl
    · exact .sequenceFails (.headFails (.tokenFails _ _ point))
  exact ⟨_, .cons first (.cons (.optionalNone none) (.nil _)), by simp [Match.empty]⟩

theorem takes_fraction {whole part rest : Text} (before : DigitRun whole) (behind : DigitRun part)
    (stops : ∀ c ∈ rest.head?, c.isDigit = false) : Takes rules (whole ++ '.' :: part) rest := by
  have first : Derives rules (many1 digit) (whole ++ '.' :: (part ++ rest)) _ :=
    derives_many1_chars (.char _) before.2 (by simp [CharClass.accepts]) before.1
  have point : Derives rules (token ".") ('.' :: (part ++ rest)) _ :=
    .token ['.'] (part ++ rest) (List.cons_ne_nil _ _)
  have last : Derives rules (many1 digit) (part ++ rest) _ :=
    derives_many1_chars (.char _) behind.2 stops behind.1
  have row : DerivesRow rules parts (whole ++ '.' :: (part ++ rest)) _ :=
    .cons first (.cons (.optional (.sequence (.cons point (.cons last (.nil _))))) (.nil _))
  have same : whole ++ '.' :: part ++ rest = whole ++ '.' :: (part ++ rest) := List.append_assoc ..
  rw [Takes, same]
  exact ⟨_, row, by simp [Match.joined]⟩

def EndsLiteral (rest : Text) : Prop := ∀ c ∈ rest.head?, c.isDigit = false ∧ c ≠ '.'

theorem not_literal_of_blank {c : Char} (blank : Text.isBlank c = true) :
    c.isDigit = false ∧ c ≠ '.' := by
  refine ⟨Text.not_digit_of_blank blank, ?_⟩
  rintro rfl
  exact absurd blank (by decide)

theorem takes_unsigned {text rest : Text} (literal : Unsigned text) (stops : EndsLiteral rest) :
    Takes rules text rest := by
  have noDigit : ∀ c ∈ rest.head?, c.isDigit = false := fun c here => (stops c here).1
  cases literal with
  | whole all =>
    refine takes_whole all noDigit fun c tail same => ?_
    rw [same] at stops
    exact absurd rfl (stops '.' rfl).2
  | fraction before behind => exact takes_fraction before behind noDigit

/-- The longest literal at the front of a text is taken; without a digit there is none. -/
theorem exists_takes (rules : Rules) (input : Text) :
    (∃ text rest, text ++ rest = input ∧ Unsigned text ∧ Takes rules text rest) ∨
      DerivesRow rules parts input (.done none) := by
  obtain ⟨digits, rest, rfl, digit, stops⟩ := exists_run Char.isDigit input
  by_cases empty : digits = []
  · subst empty
    exact .inr (.headFails (derives_many1_chars_fails (.char _) stops))
  · have whole : DigitRun digits := ⟨empty, digit⟩
    by_cases point : ∃ c tail, rest = '.' :: c :: tail ∧ c.isDigit = true
    · obtain ⟨c, tail, rfl, first⟩ := point
      obtain ⟨part, behind, same, every, ends⟩ := exists_run Char.isDigit (c :: tail)
      have nonempty : part ≠ [] := by
        rintro rfl
        rw [List.nil_append] at same
        rw [same] at ends
        exact absurd first (Bool.eq_false_iff.mp (ends c rfl))
      refine .inl ⟨digits ++ '.' :: part, behind, ?_, .fraction whole ⟨nonempty, every⟩,
        takes_fraction whole ⟨nonempty, every⟩ ends⟩
      rw [List.append_assoc, List.cons_append, same]
    · refine .inl ⟨digits, rest, rfl, .whole whole, takes_whole whole stops fun c tail same => ?_⟩
      by_contra digit
      exact point ⟨c, tail, same, Bool.eq_true_of_not_eq_false digit⟩

end Peg.Decimal
