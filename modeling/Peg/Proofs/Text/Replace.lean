import Peg.Text.Basic

/-!
Replacement in a text, taken from the front: at a place of the old text, at any other character, and
over a stretch in which no place can start.
-/
namespace Peg.Text

variable {old new : Text}

theorem replaceFrom_skip (front text : Text) :
    replaceFrom old new front.length (front ++ text) = replace old new text := by
  induction front with
  | nil => rfl
  | cons c front ih => exact ih

theorem replace_append (nonempty : old ≠ []) (text : Text) :
    replace old new (old ++ text) = new ++ replace old new text := by
  obtain ⟨c, tail, rfl⟩ := List.exists_cons_of_ne_nil nonempty
  have here : after? (c :: tail) (c :: (tail ++ text)) = some text := after?_append (c :: tail) text
  rw [List.cons_append, replace, replaceFrom, here]
  exact congrArg (new ++ ·) (replaceFrom_skip tail text)

theorem replace_cons {c : Char} {text : Text} (other : ¬ old <+: c :: text) :
    replace old new (c :: text) = c :: replace old new text := by
  rw [replace, replaceFrom, after?_eq_none other, replace]

theorem replace_clear_append {c : Char} {tail front : Text} (clear : c ∉ front) (text : Text) :
    replace (c :: tail) new (front ++ text) = front ++ replace (c :: tail) new text := by
  induction front with
  | nil => rfl
  | cons d front ih =>
    rw [List.mem_cons, not_or] at clear
    obtain ⟨differs, later⟩ := clear
    rw [List.cons_append, replace_cons fun here => differs (List.cons_prefix_cons.mp here).1,
      ih later, List.cons_append]

end Peg.Text
