import Peg.Text.Basic

/-!
The value that a successful parse builds: text cut from the input, text made
anew, numbers, truth values, and lists of these. Reading off one shape gives
nothing on every other shape.
-/
namespace Peg

/-- The structured value of a match. `text` is a piece of the input, `owned` a
text that an action made. -/
inductive Tree where
  | text (piece : Text)
  | owned (made : Text)
  | int (value : Int64)
  | float (value : Float)
  | bool (value : Bool)
  | list (items : List Tree)
  deriving Inhabited

namespace Tree

def text? : Tree → Option Text
  | text piece => some piece
  | _ => none

def string? : Tree → Option Text
  | text piece => some piece
  | owned made => some made
  | _ => none

def int? : Tree → Option Int64
  | int value => some value
  | _ => none

def float? : Tree → Option Float
  | float value => some value
  | int value => some value.toFloat
  | _ => none

def bool? : Tree → Option Bool
  | bool value => some value
  | _ => none

def list? : Tree → Option (List Tree)
  | list items => some items
  | _ => none

def isList : Tree → Bool
  | list _ => true
  | _ => false

mutual

def collect : Tree → (after : List Tree) → List Tree
  | list items, after => collectAll items after
  | leaf, after => leaf :: after

def collectAll : List Tree → (after : List Tree) → List Tree
  | [], after => after
  | item :: items, after => collect item (collectAll items after)

end

/-- Splices nested lists into one flat list; a leaf becomes a list of one. -/
def flatten (tree : Tree) : Tree := list (tree.collect [])

mutual

def collectText : Tree → (after : Text) → Text
  | text piece, after => piece ++ after
  | owned made, after => made ++ after
  | list items, after => collectTexts items after
  | _, after => after

def collectTexts : List Tree → (after : Text) → Text
  | [], after => after
  | item :: items, after => collectText item (collectTexts items after)

end

def flattenText (tree : Tree) : Text := tree.collectText []

mutual

/-- Equality of trees, with floats compared as numbers: a NaN differs from
itself, and the two zeros are equal. -/
def same : Tree → Tree → Bool
  | text a, text b => a == b
  | owned a, owned b => a == b
  | int a, int b => a == b
  | float a, float b => a == b
  | bool a, bool b => a == b
  | list as, list bs => sameAll as bs
  | _, _ => false

def sameAll : List Tree → List Tree → Bool
  | [], [] => true
  | a :: as, b :: bs => same a b && sameAll as bs
  | _, _ => false

end

instance : BEq Tree := ⟨same⟩

def push (tree : Option Tree) (item : Tree) : Tree :=
  list (((tree.bind list?).getD []) ++ [item])

end Tree
end Peg
