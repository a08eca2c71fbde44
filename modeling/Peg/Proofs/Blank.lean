import Mathlib.Data.List.TakeWhile
import Peg.Text.Blank

/-!
Texts of blanks, texts that start with none, and what is left of a text when the
blanks in front are taken off.
-/
namespace Peg.Text

def Blank (text : Text) : Prop := ∀ c ∈ text, isBlank c = true

instance (text : Text) : Decidable text.Blank := List.decidableBAll _ text

theorem Blank.append {blanks more : Text} (left : Blank blanks) (right : Blank more) :
    Blank (blanks ++ more) := fun c member => (List.mem_append.mp member).elim (left c) (right c)

/-- A text that does not start with a blank. -/
def Solid (text : Text) : Prop := ∀ c ∈ text.head?, isBlank c = false

theorem solid_cons {c : Char} (clear : isBlank c = false) (text : Text) : Solid (c :: text) := by
  intro d first
  cases first
  exact clear

theorem Solid.append {text : Text} (solid : Solid text) (nonempty : text ≠ []) (rest : Text) :
    Solid (text ++ rest) := by
  obtain ⟨c, tail, rfl⟩ := List.exists_cons_of_ne_nil nonempty
  exact solid

theorem blanks_append_trimStart (text : Text) :
    text.takeWhile isBlank ++ trimStart text = text :=
  List.takeWhile_append_dropWhile

theorem blank_takeWhile (text : Text) : Blank (text.takeWhile isBlank) :=
  fun _ member => List.mem_takeWhile_imp member

theorem solid_trimStart (text : Text) : Solid (trimStart text) := by
  intro c first
  have stopped := List.head?_dropWhile_not isBlank text
  rw [trimStart] at first
  rwa [Option.mem_def.mp first] at stopped

theorem trimStart_of_solid {text : Text} (solid : Solid text) : trimStart text = text := by
  cases text with
  | nil => rfl
  | cons c text => rw [trimStart, List.dropWhile_cons_of_neg (by simp [solid c rfl])]

theorem trimStart_blank_append {blanks : Text} (blank : Blank blanks) (rest : Text) :
    trimStart (blanks ++ rest) = trimStart rest := by
  rw [trimStart, List.dropWhile_append_of_pos blank, trimStart]

theorem trimStart_append {blanks rest : Text} (blank : Blank blanks) (solid : Solid rest) :
    trimStart (blanks ++ rest) = rest := by
  rw [trimStart_blank_append blank, trimStart_of_solid solid]

theorem trimStart_idem (text : Text) : trimStart (trimStart text) = trimStart text :=
  trimStart_of_solid (solid_trimStart text)

theorem trimStart_suffix (text : Text) : trimStart text <:+ text :=
  List.dropWhile_suffix isBlank

theorem trimStart_length_le (text : Text) : (trimStart text).length ≤ text.length :=
  (trimStart_suffix text).length_le

theorem blank_or_head_trimStart {text : Text} {c : Char} (first : c ∈ text.head?) :
    isBlank c = true ∨ c ∈ (trimStart text).head? := by
  by_cases blank : isBlank c = true
  · exact .inl blank
  · obtain ⟨tail, rfl⟩ := List.head?_eq_some_iff.mp first
    rw [trimStart, List.dropWhile_cons_of_neg blank]
    exact .inr rfl

theorem blank_bounds {c : Char} (blank : isBlank c = true) : c.toNat ≤ 32 ∨ 133 ≤ c.toNat := by
  obtain ⟨span, member, low, high⟩ := CharSet.contains_iff.mp blank
  simp only [blanks, List.mem_cons, List.not_mem_nil, or_false] at member
  rcases member with rfl | rfl | rfl | rfl | rfl | rfl | rfl | rfl | rfl | rfl <;>
    simp only at low high <;> omega

theorem not_alphanum_of_blank {c : Char} (blank : isBlank c = true) : c.isAlphanum = false := by
  have bounds := blank_bounds blank
  by_contra plain
  rw [Bool.not_eq_false] at plain
  change (decide ('A'.val ≤ c.val ∧ c.val ≤ 'Z'.val) ||
    (decide ('a'.val ≤ c.val) && decide (c.val ≤ 'z'.val)) ||
    (decide ('0'.val ≤ c.val) && decide (c.val ≤ '9'.val))) = true at plain
  simp only [Bool.or_eq_true, Bool.and_eq_true, decide_eq_true_eq, UInt32.le_iff_toNat_le] at plain
  rcases plain with (⟨low, high⟩ | ⟨low, high⟩) | ⟨low, high⟩ <;> simp at low high <;> omega

theorem not_digit_of_blank {c : Char} (blank : isBlank c = true) : c.isDigit = false :=
  (Bool.or_eq_false_iff.mp (not_alphanum_of_blank blank)).2

theorem not_blank_of_digit {c : Char} (digit : c.isDigit = true) : isBlank c = false := by
  refine Bool.eq_false_iff.mpr fun blank => ?_
  rw [not_digit_of_blank blank] at digit
  cases digit

end Peg.Text
