import Peg.Text.Basic
import Peg.Text.CharSet

/-!
White space: the characters with the property White_Space, and the texts left
when it is taken off an end.
-/
namespace Peg.Text

def blanks : CharSet :=
  [⟨0x9, 0xD⟩, ⟨0x20, 0x20⟩, ⟨0x85, 0x85⟩, ⟨0xA0, 0xA0⟩, ⟨0x1680, 0x1680⟩,
    ⟨0x2000, 0x200A⟩, ⟨0x2028, 0x2029⟩, ⟨0x202F, 0x202F⟩, ⟨0x205F, 0x205F⟩,
    ⟨0x3000, 0x3000⟩]

def isBlank (c : Char) : Bool := blanks.contains c

def trimStart (text : Text) : Text := text.dropWhile isBlank

def trim (text : Text) : Text := (trimStart (trimStart text).reverse).reverse

end Peg.Text
