import Peg.Proofs.Text.Delimited
import Peg.Proofs.Text.Replace
import Peg.Trace.Column

/-!
The window of a trace shows the front of a text character by character. To cut the text first, to
write it with more escapes than are wanted, and to undo those of the quotes again all come to the
same as to write each character as it is to be shown.
-/
namespace Peg

namespace Text

def IsQuote (c : Char) : Prop := c = '"' ∨ c = '\''

instance : DecidablePred IsQuote := fun _ => inferInstanceAs (Decidable (_ ∨ _))

/-- A character as a window shows it. -/
def shown (apart : Bool) (c : Char) : Text :=
  if IsQuote c then [c] else escape ['"', '\''] apart c

/-- The characters of a text one by one, where only the first has nothing to attach to. -/
def eachWritten (write : (apart : Bool) → Char → Text) : Text → Text
  | [] => []
  | c :: text => write true c ++ text.flatMap (write false)

section

variable {q c : Char} {delimiters x : Text} {apart : Bool}

theorem IsQuote.itself (quote : IsQuote q) : named q = q ∧ q ≠ 'u' := by
  rcases quote with rfl | rfl <;> exact ⟨rfl, by decide⟩

theorem IsQuote.not_backslash (quotes : ∀ d ∈ delimiters, IsQuote d) : '\\' ∉ delimiters :=
  fun member => absurd (quotes _ member) (by decide)

theorem escape_quote (quote : IsQuote q) :
    escape delimiters apart q = if q ∈ delimiters then ['\\', q] else [q] := by
  have plain : isPrintable q = true ∧ extendsGrapheme q = false := by
    rcases quote with rfl | rfl <;> decide
  rcases quote with rfl | rfl <;> simp [escape, plain]

theorem escape_other (other : c ≠ q) :
    escape (q :: delimiters) apart c = escape delimiters apart c := by
  simp [escape, other]

theorem shown_eq_escape (apart : Bool) (c : Char) : shown apart c = escape [] apart c := by
  unfold shown
  split_ifs with quote
  · rw [escape_quote quote, if_neg (List.not_mem_nil)]
  · obtain ⟨double, single⟩ := not_or.mp quote
    rw [escape_other double, escape_other single]

theorem backslash_not_mem_tail (c : Char) : '\\' ∉ (codePointEscape c).tail := by
  change '\\' ∉ 'u' :: '\x7b' :: (hex c.toNat ++ ['\x7d'])
  simp only [List.mem_cons, List.mem_append, List.not_mem_nil, or_false, not_or]
  refine ⟨by decide, by decide, fun member => ?_, by decide⟩
  obtain ⟨digit, backslash⟩ := mem_toDigits (by decide) member
  exact Nat.digitChar_ne '\\' (by decide) backslash.symm

theorem replace_written_other (quote : IsQuote q) (other : c ≠ q) {text : Text}
    (written : Escaped delimiters c text) (guarded : q ∉ x.head?) :
    replace ['\\', q] [q] (text ++ x) = text ++ replace ['\\', q] [q] x := by
  cases written with
  | plain solid => exact replace_cons fun here => solid (List.cons_prefix_cons.mp here).1.symm
  | @sign s stands =>
    have sign : s ≠ q := by
      rintro rfl
      exact other (stands.symm.trans quote.itself.1)
    have first : ¬ ['\\', q] <+: '\\' :: s :: x := fun here =>
      sign (List.cons_prefix_cons.mp (List.cons_prefix_cons.mp here).2).1.symm
    have second : ¬ ['\\', q] <+: s :: x := fun here => by
      obtain ⟨rest, rfl⟩ := (List.cons_prefix_cons.mp here).2
      exact guarded rfl
    rw [List.cons_append, List.singleton_append, replace_cons first, replace_cons second]
    rfl
  | codePoint =>
    have first : ¬ ['\\', q] <+: codePointEscape c ++ x := fun here =>
      quote.itself.2 (List.cons_prefix_cons.mp (List.cons_prefix_cons.mp here).2).1
    exact (replace_cons first).trans
      (congrArg ('\\' :: ·) (replace_clear_append (backslash_not_mem_tail c) x))

theorem not_mem_head_flatMap (quotes : ∀ d ∈ q :: delimiters, IsQuote d) (text : Text) :
    q ∉ (text.flatMap (escape (q :: delimiters) apart)).head? := by
  cases text with
  | nil => nofun
  | cons c text =>
    rw [List.flatMap_cons]
    intro front
    exact escape_goes_on apart c _ (fun d member => (quotes d member).itself)
      (IsQuote.not_backslash quotes) ⟨q, front, List.mem_cons_self⟩

/-- Of the escapes only those of the one quote are undone. -/
theorem replace_escape (quotes : ∀ d ∈ q :: delimiters, IsQuote d) (outside : q ∉ delimiters)
    (guarded : q ∉ x.head?) :
    replace ['\\', q] [q] (escape (q :: delimiters) apart c ++ x) =
      escape delimiters apart c ++ replace ['\\', q] [q] x := by
  obtain ⟨quote, inner⟩ := List.forall_mem_cons.mp quotes
  by_cases same : c = q
  · subst same
    rw [escape_quote quote, if_pos List.mem_cons_self, escape_quote quote, if_neg outside]
    exact replace_append (List.cons_ne_nil _ _) x
  · rw [escape_other same]
    have written := escape_escaped apart c fun d member => (inner d member).itself
    exact replace_written_other quote same written guarded

theorem replace_flatMap (quotes : ∀ d ∈ q :: delimiters, IsQuote d) (outside : q ∉ delimiters)
    (text : Text) :
    replace ['\\', q] [q] (text.flatMap (escape (q :: delimiters) apart)) =
      text.flatMap (escape delimiters apart) := by
  induction text with
  | nil => rfl
  | cons c text ih =>
    rw [List.flatMap_cons, replace_escape quotes outside (not_mem_head_flatMap quotes text), ih,
      List.flatMap_cons]

theorem replace_eachWritten (quotes : ∀ d ∈ q :: delimiters, IsQuote d) (outside : q ∉ delimiters)
    (text : Text) :
    replace ['\\', q] [q] (eachWritten (escape (q :: delimiters)) text) =
      eachWritten (escape delimiters) text := by
  cases text with
  | nil => rfl
  | cons c text =>
    rw [eachWritten, replace_escape quotes outside (not_mem_head_flatMap quotes text),
      replace_flatMap quotes outside, eachWritten]

end

theorem escaped_eq (text : Text) : escaped text = eachWritten (escape ['"', '\'']) text := by
  cases text <;> rfl

theorem eachWritten_shown (text : Text) :
    eachWritten shown text = eachWritten (escape []) text := by
  rw [show shown = escape [] from funext fun apart => funext (shown_eq_escape apart)]

theorem replace_escaped (text : Text) :
    replace "\\'".toList ['\''] (replace "\\\"".toList ['"'] (escaped text)) =
      eachWritten shown text := by
  have double : replace ['\\', '"'] ['"'] (eachWritten (escape ['"', '\'']) text) =
      eachWritten (escape ['\'']) text :=
    replace_eachWritten (by simp [IsQuote]) (by decide) text
  have single : replace ['\\', '\''] ['\''] (eachWritten (escape ['\'']) text) =
      eachWritten (escape []) text :=
    replace_eachWritten (by simp [IsQuote]) (by decide) text
  rw [escaped_eq, eachWritten_shown]
  exact (congrArg _ double).trans single

theorem shown_ne_nil (apart : Bool) (c : Char) : shown apart c ≠ [] := by
  rw [shown_eq_escape]
  exact escape_ne_nil [] apart c

theorem take_append_congr {front a b : Text} {n : Nat} (nonempty : front ≠ [])
    (same : ∀ m ≤ n, a.take m = b.take m) :
    (front ++ a).take (n + 1) = (front ++ b).take (n + 1) := by
  have some := List.length_pos_iff.mpr nonempty
  rw [List.take_append, List.take_append, same _ (by omega)]

theorem take_flatMap_take {write : Char → Text} (nonempty : ∀ c, write c ≠ []) {m n : Nat}
    (enough : m ≤ n) (text : Text) :
    ((text.take n).flatMap write).take m = (text.flatMap write).take m := by
  induction text generalizing m n with
  | nil => rw [List.take_nil]
  | cons c text ih =>
    cases m with
    | zero => rw [List.take_zero, List.take_zero]
    | succ m =>
      obtain ⟨n, rfl⟩ := Nat.exists_eq_add_one_of_ne_zero (n := n) (by omega)
      rw [List.take_succ_cons, List.flatMap_cons, List.flatMap_cons]
      exact take_append_congr (nonempty c) fun k small => ih (by omega)

theorem take_eachWritten_take {write : Bool → Char → Text}
    (nonempty : ∀ apart c, write apart c ≠ []) (n : Nat) (text : Text) :
    (eachWritten write (text.take n)).take n = (eachWritten write text).take n := by
  cases text with
  | nil => rw [List.take_nil]
  | cons c text =>
    cases n with
    | zero => rw [List.take_zero, List.take_zero]
    | succ n =>
      rw [List.take_succ_cons, eachWritten, eachWritten]
      exact take_append_congr (nonempty true c) fun k small =>
        take_flatMap_take (nonempty false) small text

theorem eachWritten_shown_injective : Function.Injective (eachWritten shown) := by
  intro text text' same
  rw [eachWritten_shown, eachWritten_shown] at same
  have bare (apart : Bool) : Delimited (fun _ => True) (escape [] apart) :=
    escape_delimited apart fun _ member => absurd member List.not_mem_nil
  have starts (c : Char) (text : Text) : eachWritten (escape []) (c :: text) ≠ [] := fun empty =>
    escape_ne_nil [] true c (List.append_eq_nil_iff.mp empty).1
  cases text with
  | nil =>
    cases text' with
    | nil => rfl
    | cons c text' => exact absurd same.symm (starts c text')
  | cons c text =>
    cases text' with
    | nil => exact absurd same (starts c text)
    | cons c' text' =>
      obtain ⟨rfl, later⟩ := bare true trivial trivial same
      rw [← List.append_nil (text.flatMap _), ← List.append_nil (text'.flatMap _)] at later
      have solid (c : Char) (x : Text) (empty : escape [] false c ++ x = []) : False :=
        escape_ne_nil [] false c (List.append_eq_nil_iff.mp empty).1
      obtain ⟨rfl, -⟩ := flatMap_unique (· = [])
        (fun _ _ _ _ _ _ => bare false trivial trivial) solid rfl rfl later
      rfl

end Text

namespace Trace

open Text

theorem window_eq (input : Text) : window input = (eachWritten shown input).take windowWidth := by
  calc window input
      = (replace "\\'".toList ['\''] (replace "\\\"".toList ['"']
          (escaped (input.take windowWidth)))).take windowWidth := rfl
    _ = (eachWritten shown (input.take windowWidth)).take windowWidth := by rw [replace_escaped]
    _ = (eachWritten shown input).take windowWidth := take_eachWritten_take shown_ne_nil _ _

theorem column_eq (input : Text) : column input =
    '|' :: window input ++ '|' :: List.replicate (windowWidth - (window input).length) ' ' := by
  have size : columnWidth - ('|' :: window input ++ ['|']).length =
      windowWidth - (window input).length := by
    simp [columnWidth, windowWidth]
  rw [column, padRight, size, List.append_assoc, List.singleton_append]

theorem window_eq_of_column_eq {input other : Text} (same : column input = column other) :
    window input = window other := by
  have blanks (n : Nat) : ∀ c ∈ List.replicate n ' ', (c == ' ') = true := by simp
  have bar (text : Text) : ∀ c ∈ ('|' :: text).head?, (c == ' ') = false := by simp
  rw [column_eq, column_eq] at same
  have backwards := congrArg List.reverse same
  simp only [List.reverse_append, List.reverse_cons, List.reverse_replicate, List.append_assoc,
    List.singleton_append] at backwards
  obtain ⟨-, windows⟩ := run_unique (blanks _) (blanks _) (bar _) (bar _) backwards
  exact List.reverse_inj.mp (List.append_cancel_right (List.cons.inj windows).2)

/-- A column has its width for every text, with a window between bars and blanks behind. The window
is the front of the characters written one by one; cutting the text before it is escaped changes
nothing, and undoing the escapes of quotes touches nothing else. Texts that fit whole are told
apart by their columns. -/
theorem column_shows (input : Text) :
    (column input).length = 35 ∧
    (window input).length ≤ 33 ∧
    column input = '|' :: window input ++ '|' :: List.replicate (33 - (window input).length) ' ' ∧
    window input = (eachWritten shown input).take 33 ∧
    replace "\\'".toList ['\''] (replace "\\\"".toList ['"'] (escaped input)) =
      eachWritten shown input ∧
    window input = (replace "\\'".toList ['\'']
      (replace "\\\"".toList ['"'] (escaped input))).take 33 ∧
    ∀ other, (eachWritten shown input).length ≤ 33 → (eachWritten shown other).length ≤ 33 →
      column input = column other → input = other := by
  have front : window input = (eachWritten shown input).take 33 := window_eq input
  have fits : (window input).length ≤ 33 := front ▸ List.length_take_le 33 _
  refine ⟨?_, fits, column_eq input, front, replace_escaped input, ?_, ?_⟩
  · have narrow : ('|' :: window input ++ ['|']).length ≤ columnWidth := by
      rw [List.length_append, List.length_cons, List.length_singleton]
      exact Nat.add_le_add_right (Nat.succ_le_succ fits) 1
    rw [column, padRight_length, Nat.max_eq_right narrow]
    rfl
  · rw [replace_escaped, front]
  · intro other whole whole' same
    apply eachWritten_shown_injective
    calc eachWritten shown input
        = (eachWritten shown input).take 33 := (List.take_of_length_le whole).symm
      _ = window input := front.symm
      _ = window other := window_eq_of_column_eq same
      _ = (eachWritten shown other).take 33 := window_eq other
      _ = eachWritten shown other := List.take_of_length_le whole'

end Trace
end Peg
