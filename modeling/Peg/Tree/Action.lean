import Peg.Tree.Basic
import Peg.Decimal.Reader

/-!
Semantic actions: functions from the tree of a match, which may be missing, to
the tree put in its place. An action may also break off the whole parse.
-/
namespace Peg

/-- The ways in which an action breaks off a parse; an action of one's own
breaks off with words of its own. -/
inductive Fault where
  | badAction
  | addOverflow
  | subtractOverflow
  | other (words : String)
  deriving DecidableEq, Inhabited

def Fault.message : Fault → String
  | badAction => "bad action"
  | addOverflow => "attempt to add with overflow"
  | subtractOverflow => "attempt to subtract with overflow"
  | other words => words

abbrev Action := Option Tree → Except Fault (Option Tree)

namespace Action

def total (f : Option Tree → Option Tree) : Action := fun tree => .ok (f tree)

def onTree (f : Tree → Option Tree) : Action := total (·.bind f)

def keep : Action := total id

def drop : Action := total fun _ => none

def always (tree : Tree) : Action := total fun _ => some tree

def fail (fault : Fault) : Action := fun _ => .error fault

def readInt : Action := onTree fun tree => (tree.text?.bind Decimal.int64?).map .int

def readFloat : Action := onTree fun tree => (tree.text?.bind Decimal.float?).map .float

def readBool : Action := onTree fun tree => tree.text?.bind fun piece =>
  if piece = "true".toList then some (.bool true)
  else if piece = "false".toList then some (.bool false)
  else none

def ownText : Action := onTree fun tree => some (.owned tree.flattenText)

def ownString : Action := onTree fun tree => tree.string?.map .owned

def flatten : Action := onTree fun tree => some tree.flatten

def first : Action := onTree fun tree => tree.list?.bind List.head?

def firstOrEmpty : Action := onTree fun tree => tree.list?.map fun items => items.head?.getD (.list [])

def wrap : Action := total fun tree => some (.list tree.toList)

def count : Action := onTree fun tree => tree.list?.map fun items => .int (Int64.ofNat items.length)

def isList : Action := onTree fun tree => some (.bool tree.isList)

def toFloat : Action := onTree fun tree => tree.float?.map .float

def halve : Action := onTree fun tree => tree.float?.map fun x => .float (x / 2)

def negate : Action := onTree fun tree => tree.bool?.map fun b => .bool !b

end Action
end Peg
