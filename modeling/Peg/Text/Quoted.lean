import Peg.Text.Basic
import Peg.Text.Printable
import Peg.Text.GraphemeExtend

/-!
Quoted text. A character that would end the quotation, a backslash, a control
character with a short name, and any character that cannot be told apart on
paper are written as escapes; every other character stands for itself.
-/
namespace Peg.Text

def hex (n : Nat) : Text := Nat.toDigits 16 n

def codePointEscape (c : Char) : Text :=
  "\\u\x7b".toList ++ hex c.toNat ++ ['\x7d']

/-- How one character is written inside quotes. The quotes to protect are
`delimiters`; `apart` asks that a character which would attach to its neighbour
is named by its code point. -/
def escape (delimiters : Text) (apart : Bool) (c : Char) : Text :=
  if c = '\x00' then "\\0".toList
  else if c = '\t' then "\\t".toList
  else if c = '\r' then "\\r".toList
  else if c = '\n' then "\\n".toList
  else if c = '\\' || delimiters.contains c then ['\\', c]
  else if (apart && extendsGrapheme c) || !isPrintable c then codePointEscape c
  else [c]

def quoted (text : Text) : Text := '"' :: text.flatMap (escape ['"'] true) ++ ['"']

def quotedChar (c : Char) : Text := '\'' :: escape ['\''] true c ++ ['\'']

def quotedChars (set : Text) : Text :=
  '[' :: join ", ".toList (set.map quotedChar) ++ [']']

/-- A text with both kinds of quote escaped and none around it. Only its first
character has nothing to attach to. -/
def escaped : Text → Text
  | [] => []
  | c :: text => escape ['"', '\''] true c ++ text.flatMap (escape ['"', '\''] false)

theorem escape_ne_nil (delimiters : Text) (apart : Bool) (c : Char) :
    escape delimiters apart c ≠ [] := by
  unfold escape
  repeat' split
  all_goals simp [codePointEscape]

end Peg.Text
