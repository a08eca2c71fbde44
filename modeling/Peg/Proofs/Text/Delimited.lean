import Peg.Text.Quoted
import Peg.Proofs.Text.Run

/-!
Written values that can be told apart in place. Of a number, an escape or a quotation in front of
more text, both the value and the text behind it are found from the characters alone.
-/
namespace Peg.Text

/-- In front of texts that `ends` accepts, what is written shows the value and where it ends. -/
def Delimited {α : Type} (ends : Text → Prop) (write : α → Text) : Prop :=
  ∀ ⦃a b : α⦄ ⦃x y : Text⦄, ends x → ends y → write a ++ x = write b ++ y → a = b ∧ x = y

/-- A row of values is told from another when each two of their values are, and no value starts
like the end of a row. -/
theorem flatMap_unique {α : Type} (ends : Text → Prop) {write : α → Text} {as bs : List α}
    {x y : Text} (each : ∀ a ∈ as, ∀ b ∈ bs, ∀ x y, write a ++ x = write b ++ y → a = b ∧ x = y)
    (other : ∀ a x, ¬ ends (write a ++ x)) (endsX : ends x) (endsY : ends y)
    (same : as.flatMap write ++ x = bs.flatMap write ++ y) : as = bs ∧ x = y := by
  induction as generalizing bs with
  | nil =>
    cases bs with
    | nil => exact ⟨rfl, same⟩
    | cons b bs =>
      simp only [List.flatMap_nil, List.nil_append, List.flatMap_cons, List.append_assoc] at same
      exact absurd (same ▸ endsX) (other b _)
  | cons a as ih =>
    cases bs with
    | nil =>
      simp only [List.flatMap_nil, List.nil_append, List.flatMap_cons, List.append_assoc] at same
      exact absurd (same ▸ endsY) (other a _)
    | cons b bs =>
      simp only [List.flatMap_cons, List.append_assoc] at same
      obtain ⟨rfl, later⟩ := each a List.mem_cons_self b List.mem_cons_self _ _ same
      obtain ⟨rfl, rest⟩ := ih (fun a left b right => each a (List.mem_cons_of_mem _ left) b
        (List.mem_cons_of_mem _ right)) later
      exact ⟨rfl, rest⟩

theorem digitChar_inj : ∀ m < 16, ∀ n < 16, Nat.digitChar m = Nat.digitChar n → m = n := by
  decide

theorem toDigits_eq {base : Nat} (low : 1 < base) (n : Nat) :
    Nat.toDigits base n = (if n < base then [] else Nat.toDigits base (n / base)) ++
      [Nat.digitChar (n % base)] := by
  rw [Nat.toDigits_eq_if low]
  split
  · next small => rw [Nat.mod_eq_of_lt small, List.nil_append]
  · rfl

theorem toDigits_injective {base : Nat} (low : 1 < base) (high : base ≤ 16) :
    Function.Injective (Nat.toDigits base) := by
  intro m n same
  induction m using Nat.strongRecOn generalizing n with
  | ind m ih =>
    rw [toDigits_eq low m, toDigits_eq low n] at same
    obtain ⟨front, last⟩ := List.append_inj' same rfl
    have remainder : m % base = n % base := by
      have lastM := Nat.mod_lt m (by omega : 0 < base)
      have lastN := Nat.mod_lt n (by omega : 0 < base)
      exact digitChar_inj _ (by omega) _ (by omega) (List.singleton_inj.mp last)
    split at front <;> split at front
    · next small small' => rwa [Nat.mod_eq_of_lt small, Nat.mod_eq_of_lt small'] at remainder
    · exact absurd front.symm Nat.toDigits_ne_nil
    · exact absurd front Nat.toDigits_ne_nil
    · have quotient := ih (m / base) (Nat.div_lt_self (by omega) low) front
      rw [← Nat.div_add_mod m base, ← Nat.div_add_mod n base, quotient, remainder]

theorem mem_toDigits {base n : Nat} {c : Char} (low : 1 < base) (member : c ∈ Nat.toDigits base n) :
    ∃ digit, c = Nat.digitChar digit := by
  induction n using Nat.strongRecOn with
  | ind n ih =>
    rw [toDigits_eq low n, List.mem_append] at member
    rcases member with front | last
    · split at front
      · cases front
      · exact ih (n / base) (Nat.div_lt_self (by omega) low) front
    · exact ⟨_, List.mem_singleton.mp last⟩

def EndsNumber (rest : Text) : Prop := ∀ c ∈ rest.head?, c.isDigit = false

theorem digit_of_mem_ofNat {n : Nat} {c : Char} (member : c ∈ ofNat n) : c.isDigit = true :=
  Nat.isDigit_of_mem_toDigits (by decide) (by decide) member

theorem ofNat_delimited : Delimited EndsNumber ofNat := by
  intro m n x y endsX endsY same
  obtain ⟨digits, rest⟩ := run_unique (fun _ => digit_of_mem_ofNat) (fun _ => digit_of_mem_ofNat)
    endsX endsY same
  exact ⟨toDigits_injective (by decide) (by decide) digits, rest⟩

theorem ofNat_first (n : Nat) : ∃ c tail, ofNat n = c :: tail ∧ c.isDigit = true := by
  obtain ⟨c, tail, same⟩ := List.exists_cons_of_ne_nil (Nat.toDigits_ne_nil : Nat.toDigits 10 n ≠ [])
  exact ⟨c, tail, same, digit_of_mem_ofNat (n := n) (by simp [ofNat, same])⟩

theorem ofInt_first (n : Int) : ∃ c tail, ofInt n = c :: tail ∧ (c = '-' ∨ c.isDigit = true) := by
  unfold ofInt
  split
  · exact ⟨_, _, rfl, .inl rfl⟩
  · obtain ⟨c, tail, same, digit⟩ := ofNat_first n.natAbs
    exact ⟨c, tail, same, .inr digit⟩

theorem ofNat_append_ne_minus (n : Nat) (x y : Text) : ofNat n ++ x ≠ '-' :: y := by
  obtain ⟨c, tail, written, digit⟩ := ofNat_first n
  rw [written]
  intro same
  rw [(List.cons.inj same).1] at digit
  exact absurd digit (by decide)

theorem ofInt_delimited : Delimited EndsNumber ofInt := by
  intro m n x y endsX endsY same
  unfold ofInt at same
  split at same <;> split at same
  · obtain ⟨absolute, rest⟩ := ofNat_delimited endsX endsY (List.cons.inj same).2
    exact ⟨by omega, rest⟩
  · exact absurd same.symm (ofNat_append_ne_minus _ _ _)
  · exact absurd same (ofNat_append_ne_minus _ _ _)
  · obtain ⟨absolute, rest⟩ := ofNat_delimited endsX endsY same
    exact ⟨by omega, rest⟩

theorem codePointEscape_delimited : Delimited (fun _ => True) codePointEscape := by
  intro c d x y _ _ same
  have clear : ∀ n, '\x7d' ∉ hex n := by
    intro n member
    obtain ⟨digit, brace⟩ := mem_toDigits (by decide) member
    exact Nat.digitChar_ne '\x7d' (by decide) brace.symm
  simp only [codePointEscape, List.append_assoc, List.append_cancel_left_eq] at same
  obtain ⟨number, rest⟩ := mark_unique (clear _) (clear _) same
  exact ⟨Char.toNat_inj.mp (toDigits_injective (by decide) (by decide) number), rest⟩

def named : Char → Char
  | '0' => '\x00'
  | 't' => '\t'
  | 'r' => '\r'
  | 'n' => '\n'
  | c => c

/-- The three ways to write a character: as it is, by a sign, or by its code point. -/
inductive Escaped (delimiters : Text) (c : Char) : Text → Prop
  | plain (solid : c ≠ '\\') (inside : c ∉ delimiters) : Escaped delimiters c [c]
  | sign {s} (stands : named s = c) (other : s ≠ 'u') : Escaped delimiters c ['\\', s]
  | codePoint : Escaped delimiters c (codePointEscape c)

theorem escape_escaped {delimiters : Text} (apart : Bool) (c : Char)
    (themselves : ∀ d ∈ delimiters, named d = d ∧ d ≠ 'u') :
    Escaped delimiters c (escape delimiters apart c) := by
  unfold escape
  split_ifs with null tab turn line protect code
  · exact .sign (s := '0') null.symm (by decide)
  · exact .sign (s := 't') tab.symm (by decide)
  · exact .sign (s := 'r') turn.symm (by decide)
  · exact .sign (s := 'n') line.symm (by decide)
  · simp only [Bool.or_eq_true, decide_eq_true_eq, List.contains_iff_mem] at protect
    rcases protect with rfl | member
    · exact .sign rfl (by decide)
    · exact .sign (themselves c member).1 (themselves c member).2
  · exact .codePoint
  · simp only [Bool.or_eq_true, decide_eq_true_eq, List.contains_iff_mem, not_or] at protect
    exact .plain protect.1 protect.2

theorem escape_delimited {delimiters : Text} (apart : Bool)
    (themselves : ∀ d ∈ delimiters, named d = d ∧ d ≠ 'u') :
    Delimited (fun _ => True) (escape delimiters apart) := by
  intro c d x y _ _ same
  have one := escape_escaped apart c themselves
  have other := escape_escaped apart d themselves
  generalize escape delimiters apart c = text at one same
  generalize escape delimiters apart d = text' at other same
  cases one with
  | plain solid =>
    cases other with
    | plain => exact List.cons.inj same
    | sign | codePoint => exact absurd (List.cons.inj same).1 solid
  | sign stands ordinary =>
    cases other with
    | plain solid => exact absurd (List.cons.inj same).1.symm solid
    | sign stands' =>
      obtain ⟨sign, rest⟩ := List.cons.inj (List.cons.inj same).2
      exact ⟨stands.symm.trans (sign ▸ stands'), rest⟩
    | codePoint => exact absurd (List.cons.inj (List.cons.inj same).2).1 ordinary
  | codePoint =>
    cases other with
    | plain solid => exact absurd (List.cons.inj same).1.symm solid
    | sign _ ordinary => exact absurd (List.cons.inj (List.cons.inj same).2).1.symm ordinary
    | codePoint => exact codePointEscape_delimited trivial trivial same

def EndsQuotation (delimiters rest : Text) : Prop := ∃ d ∈ rest.head?, d ∈ delimiters

theorem escape_goes_on {delimiters : Text} (apart : Bool) (c : Char) (x : Text)
    (themselves : ∀ d ∈ delimiters, named d = d ∧ d ≠ 'u') (backslash : '\\' ∉ delimiters) :
    ¬ EndsQuotation delimiters (escape delimiters apart c ++ x) := by
  rintro ⟨d, front, member⟩
  have written := escape_escaped apart c themselves
  generalize escape delimiters apart c = text at written front
  cases written with
  | plain _ inside => exact inside (Option.some.inj front ▸ member)
  | sign | codePoint =>
    obtain rfl : '\\' = d := Option.some.inj front
    exact backslash member

theorem quoted_delimited : Delimited (fun _ => True) quoted := by
  intro a b x y _ _ same
  have themselves : ∀ d ∈ ['"'], named d = d ∧ d ≠ 'u' := by
    intro d member
    obtain rfl := List.mem_singleton.mp member
    exact ⟨rfl, by decide⟩
  simp only [quoted, List.cons_append, List.append_assoc, List.cons.injEq, true_and] at same
  obtain ⟨content, rest⟩ := flatMap_unique (EndsQuotation ['"'])
    (fun _ _ _ _ _ _ => escape_delimited true themselves trivial trivial)
    (fun c x => escape_goes_on true c x themselves (by decide))
    ⟨'"', rfl, by decide⟩ ⟨'"', rfl, by decide⟩ same
  exact ⟨content, (List.cons.inj rest).2⟩

theorem quoted_injective : Function.Injective quoted := fun _ _ same =>
  (quoted_delimited trivial trivial (congrArg (· ++ []) same)).1

theorem newline_not_mem_escape (apart : Bool) (c : Char) : '\n' ∉ escape ['"'] apart c := by
  unfold escape
  split_ifs with null tab turn line protect code
  · decide
  · decide
  · decide
  · decide
  · simp only [Bool.or_eq_true, decide_eq_true_eq, List.contains_iff_mem,
      List.mem_singleton] at protect
    rcases protect with rfl | rfl <;> decide
  · simp only [codePointEscape, List.mem_append, not_or]
    refine ⟨⟨by decide, fun member => ?_⟩, by decide⟩
    obtain ⟨digit, newline⟩ := mem_toDigits (by decide) member
    exact Nat.digitChar_ne '\n' (by decide) newline.symm
  · exact fun member => line (List.mem_singleton.mp member).symm

theorem newline_not_mem_quoted (text : Text) : '\n' ∉ quoted text := by
  simp only [quoted, List.cons_append, List.mem_cons, List.mem_append, List.mem_flatMap,
    List.not_mem_nil, or_false, not_or, not_exists, not_and]
  exact ⟨by decide, fun c _ => newline_not_mem_escape true c, by decide⟩

end Peg.Text
