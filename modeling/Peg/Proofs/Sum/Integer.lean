import Mathlib.Data.Nat.Digits.Defs
import Peg.Proofs.Sum.Reading
import Peg.Proofs.Text.Delimited

/-!
The parser of whole numbers. It takes the longest whole number at the front of a text and no other,
has a word for it exactly when it fits, and reads back every word that is written in decimal.
-/
namespace Peg.Language.Sum

open Grammar Text

/-- The number that digits stand for by their places: the last one counts once, and every other
one ten times as much as in the place behind it. -/
def placeValue (digits : Text) : Nat :=
  Nat.ofDigits 10 (digits.reverse.map fun c => c.toNat - '0'.toNat)

inductive StartsNumber : Text → Prop
  | digit {c tail} (digit : c.isDigit = true) : StartsNumber (c :: tail)
  | minus {c tail} (digit : c.isDigit = true) : StartsNumber ('-' :: c :: tail)

/-- A whole number as it is written, with the value that the places of its digits give it. -/
inductive Denotes : Text → Int → Prop
  | plain {digits} (all : Decimal.DigitRun digits) : Denotes digits (placeValue digits)
  | minus {digits} (all : Decimal.DigitRun digits) : Denotes ('-' :: digits) (-placeValue digits)

structure LongestNumber (input literal rest : Text) (value : Int) : Prop where
  denotes : Denotes literal value
  split : literal ++ rest = input
  most : ∀ {other value}, Denotes other value → other <+: input → other.length ≤ literal.length

section

variable {input literal rest : Text} {value : Int}

theorem digitsValue_eq_placeValue (digits : Text) :
    Decimal.digitsValue digits = placeValue digits := by
  induction digits using List.reverseRecOn with
  | nil => rfl
  | append_singleton digits c ih =>
    have step : Decimal.digitsValue (digits ++ [c]) =
        10 * Decimal.digitsValue digits + (c.toNat - '0'.toNat) := by
      rw [Decimal.digitsValue, List.foldl_append]
      rfl
    rw [step, ih, placeValue, placeValue, List.reverse_append, List.reverse_singleton,
      List.singleton_append, List.map_cons, Nat.ofDigits_cons, Nat.add_comm]

theorem denotes_iff_numeral : Denotes literal value ↔ Numeral literal value := by
  constructor
  · intro denotes
    cases denotes with
    | plain all => exact digitsValue_eq_placeValue literal ▸ .plain all
    | @minus digits all => exact digitsValue_eq_placeValue digits ▸ .minus all
  · intro numeral
    cases numeral with
    | plain all => exact digitsValue_eq_placeValue literal ▸ .plain all
    | @minus digits all => exact digitsValue_eq_placeValue digits ▸ .minus all

theorem digitRun_ofNat (n : Nat) : Decimal.DigitRun (ofNat n) :=
  ⟨Nat.toDigits_ne_nil, fun _ => digit_of_mem_ofNat⟩

theorem digitsValue_ofNat (n : Nat) : Decimal.digitsValue (ofNat n) = n :=
  Nat.ofDigitChars_toDigits (by decide) (by decide)

theorem numeral_ofInt (n : Int) : Numeral (ofInt n) n := by
  have digits := digitRun_ofNat n.natAbs
  unfold ofInt
  split
  · next negative =>
    have written := Numeral.minus digits
    have absolute : -(n.natAbs : Int) = n := by omega
    rwa [digitsValue_ofNat, absolute] at written
  · next positive =>
    have written := Numeral.plain digits
    have absolute : (n.natAbs : Int) = n := by omega
    rwa [digitsValue_ofNat, absolute] at written

theorem word?_toInt (n : Int64) : word? n.toInt = some n := by
  have fits : Fits n.toInt := ⟨n.le_toInt, n.toInt_lt⟩
  rw [word?, if_pos fits, Int64.ofInt_toInt]

theorem startsNumber_iff :
    StartsNumber input ↔ ∃ literal value, Numeral literal value ∧ literal <+: input := by
  have single {c : Char} (digit : c.isDigit = true) : Decimal.DigitRun [c] :=
    ⟨List.cons_ne_nil c [], by simpa using digit⟩
  constructor
  · intro starts
    cases starts with
    | @digit c tail digit => exact ⟨[c], _, .plain (single digit), tail, rfl⟩
    | @minus c tail digit => exact ⟨['-', c], _, .minus (single digit), tail, rfl⟩
  · rintro ⟨literal, value, numeral, rest, rfl⟩
    cases numeral with
    | plain all =>
      obtain ⟨c, tail, rfl, digit⟩ := (Decimal.Unsigned.whole all).first_digit
      exact .digit digit
    | minus all =>
      obtain ⟨c, tail, rfl, digit⟩ := (Decimal.Unsigned.whole all).first_digit
      exact .minus digit

theorem exists_longestNumber (starts : StartsNumber input) :
    ∃ literal rest value, LongestNumber input literal rest value := by
  obtain ⟨known, value, numeral, front⟩ := startsNumber_iff.mp starts
  obtain ⟨literal, rest, split, ⟨value, denotes⟩, most⟩ := exists_longest_front
    (fun text => ∃ value, Denotes text value) ⟨value, denotes_iff_numeral.mpr numeral⟩ front
  exact ⟨literal, rest, value, denotes, split, fun other inside => most _ ⟨_, other⟩ inside⟩

theorem LongestNumber.stops (longest : LongestNumber input literal rest value) :
    ∀ c ∈ rest.head?, c.isDigit = false := by
  intro c here
  obtain ⟨tail, rfl⟩ := List.head?_eq_some_iff.mp here
  refine Bool.eq_false_iff.mpr fun digit => ?_
  obtain ⟨more, longer⟩ := (denotes_iff_numeral.mp longest.denotes).snoc_digit digit
  have front : literal ++ [c] <+: input := ⟨tail, by simp [← longest.split]⟩
  exact absurd (longest.most (denotes_iff_numeral.mpr longer) front) (by simp)

end

/-- The parser of whole numbers fails where no number starts, and takes the longest one where one
does; the tree is its word, and missing when there is none. The decimal text of a word is read back
as that word. -/
theorem integer_takes_longest (rules : Rules) :
    (∀ input, integer.parse rules input = .done none ↔ ¬ StartsNumber input) ∧
    (∀ input, StartsNumber input → ∃ literal rest value, LongestNumber input literal rest value ∧
      integer.parse rules input = .done (some
        ⟨literal, rest, if Fits value then some (.int (.ofInt value)) else none⟩)) ∧
    ∀ (n : Int64) (tail : Text), (∀ c ∈ tail.head?, c.isDigit = false) →
      integer.parse rules (ofInt n.toInt ++ tail) =
        .done (some ⟨ofInt n.toInt, tail, some (.int n)⟩) := by
  have found (input : Text) (starts : StartsNumber input) :
      ∃ literal rest value, LongestNumber input literal rest value ∧
        integer.parse rules input = .done (some
          ⟨literal, rest, if Fits value then some (.int (.ofInt value)) else none⟩) := by
    obtain ⟨literal, rest, value, longest⟩ := exists_longestNumber starts
    have derived : Derives rules integer (literal ++ rest) _ :=
      derives_integer (denotes_iff_numeral.mp longest.denotes) longest.stops
    rw [longest.split, word?, apply_ite (Option.map Tree.int)] at derived
    exact ⟨literal, rest, value, longest, parse_eq_of_derives derived⟩
  refine ⟨fun input => ⟨fun failed starts => ?_, fun bare => ?_⟩, found, fun n tail stops => ?_⟩
  · obtain ⟨_, _, _, _, ran⟩ := found input starts
    rw [failed] at ran
    cases ran
  · have none (literal value) (numeral : Numeral literal value) (front : literal <+: input) :
        False := bare (startsNumber_iff.mpr ⟨literal, value, numeral, front⟩)
    exact parse_eq_of_derives (derives_integer_fails none)
  · have derived : Derives rules integer (ofInt n.toInt ++ tail) _ :=
      derives_integer (numeral_ofInt n.toInt) stops
    rw [word?_toInt] at derived
    exact parse_eq_of_derives derived

theorem integer_takes_least :
    (∀ c ∈ [';'].head?, c.isDigit = false) ∧
    integer.parse [] "-9223372036854775808;".toList =
      .done (some ⟨"-9223372036854775808".toList, [';'], some (.int Int64.minValue)⟩) := by
  have stops : ∀ c ∈ [';'].head?, c.isDigit = false := by simp
  have written : ofInt Int64.minValue.toInt = "-9223372036854775808".toList := by decide
  have split : "-9223372036854775808;".toList = "-9223372036854775808".toList ++ [';'] := by decide
  have read := (integer_takes_longest []).2.2 Int64.minValue [';'] stops
  rw [written, ← split] at read
  exact ⟨stops, read⟩

end Peg.Language.Sum
