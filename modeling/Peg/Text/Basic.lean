/-!
Text as a list of characters, and the few operations on it that a parser and
its printers share: taking a token off the front, finding what lies in front of
an end, replacing one piece by another, and padding to a column.
-/
namespace Peg

/-- A text, one Unicode scalar value an element. -/
abbrev Text := List Char

namespace Text

def after? : (token input : Text) → Option Text
  | [], input => some input
  | _ :: _, [] => none
  | t :: token, c :: input => if t = c then after? token input else none

def before? (input rest : Text) : Option Text :=
  let size := input.length - rest.length
  if input.drop size = rest then some (input.take size) else none

/-- Replaces the occurrences of `old`, found from left to right and never
overlapping, by `new`; `skip` characters of an occurrence are still to be passed. -/
def replaceFrom (old new : Text) : (skip : Nat) → Text → Text
  | _, [] => []
  | skip + 1, _ :: text => replaceFrom old new skip text
  | 0, c :: text =>
    match after? old (c :: text) with
    | some _ => new ++ replaceFrom old new (old.length - 1) text
    | none => c :: replaceFrom old new 0 text

def replace (old new text : Text) : Text := replaceFrom old new 0 text

def padRight (width : Nat) (text : Text) : Text :=
  text ++ List.replicate (width - text.length) ' '

def join (separator : Text) : List Text → Text
  | [] => []
  | [text] => text
  | text :: next :: texts => text ++ separator ++ join separator (next :: texts)

def ofNat (n : Nat) : Text := Nat.toDigits 10 n

def ofInt (n : Int) : Text :=
  if n < 0 then '-' :: ofNat n.natAbs else ofNat n.natAbs

theorem after?_append (token rest : Text) : after? token (token ++ rest) = some rest := by
  induction token with
  | nil => rfl
  | cons t token ih => simp [after?, ih]

theorem after?_eq_some_iff {token input rest : Text} :
    after? token input = some rest ↔ token ++ rest = input := by
  refine ⟨fun found => ?_, fun same => same ▸ after?_append token rest⟩
  fun_induction after? token input with
  | case1 input => simpa using found.symm
  | case2 => simp at found
  | case3 token c input ih => simpa using ih found
  | case4 => simp at found

theorem after?_eq_none {token input : Text} (differs : ¬ token <+: input) :
    after? token input = none := by
  cases found : after? token input with
  | none => rfl
  | some rest => exact absurd ⟨rest, after?_eq_some_iff.mp found⟩ differs

theorem before?_append (front rest : Text) : before? (front ++ rest) rest = some front := by
  simp [before?]

theorem before?_eq_some_iff {input rest front : Text} :
    before? input rest = some front ↔ front ++ rest = input := by
  refine ⟨fun found => ?_, fun same => same ▸ before?_append front rest⟩
  simp only [before?] at found
  split at found
  · next tail =>
    calc front ++ rest
        = input.take (input.length - rest.length) ++ input.drop (input.length - rest.length) := by
          rw [tail, Option.some.inj found]
      _ = input := List.take_append_drop ..
  · simp at found

theorem padRight_length (width : Nat) (text : Text) :
    (padRight width text).length = max text.length width := by
  simp [padRight]
  omega

end Text
end Peg
