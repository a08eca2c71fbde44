import Peg.Tree.Basic
import Peg.Text.Quoted
import Peg.Decimal.Layout

/-!
Two texts of a tree: a plain one for readers of the result, and one that names
every constructor for readers of a trace.
-/
namespace Peg.Tree

/-- In plain text a float never has a power of ten, nor a point when it is whole. -/
def plainFloat : Decimal.Layout := ⟨none, []⟩

/-- In a trace a whole float ends in `.0`, and a power of ten is used from
`1e16` up and below `1e-4`. -/
def tracedFloat : Decimal.Layout := ⟨some (-3, 16), ".0".toList⟩

def boolText : Bool → Text
  | true => "true".toList
  | false => "false".toList

mutual

def render : Tree → Text
  | text piece => Text.quoted piece
  | owned made => Text.quoted made
  | int value => Text.ofInt value.toInt
  | float value => plainFloat.render value
  | bool value => boolText value
  | list items => '[' :: renderAll items ++ [']']

def renderAll : List Tree → Text
  | [] => []
  | [item] => render item
  | item :: next :: items => render item ++ ", ".toList ++ renderAll (next :: items)

end

def application (name : String) (argument : Text) : Text :=
  name.toList ++ '(' :: argument ++ [')']

mutual

def inspect : Tree → Text
  | text piece => application "Text" (Text.quoted piece)
  | owned made => application "Owned" (Text.quoted made)
  | int value => application "Int" (Text.ofInt value.toInt)
  | float value => application "Float" (tracedFloat.render value)
  | bool value => application "Bool" (boolText value)
  | list items => application "List" ('[' :: inspectAll items ++ [']'])

def inspectAll : List Tree → Text
  | [] => []
  | [item] => inspect item
  | item :: next :: items => inspect item ++ ", ".toList ++ inspectAll (next :: items)

end

def inspectOption : Option Tree → Text
  | none => "None".toList
  | some tree => application "Some" (inspect tree)

end Peg.Tree
