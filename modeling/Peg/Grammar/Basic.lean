import Peg.Tree.Action
import Peg.CharClass
import Peg.Error
import Peg.Leaf

/-!
Parsing expression grammars as trees of combinators, with rules by name for
grammars that refer to themselves.
-/
namespace Peg

/-- A grammar. A sequence and a choice have a first part, so neither is ever
empty; `wrapped` is a parser of its own name that runs another one. -/
inductive Grammar where
  | literal (token : Text)
  | char (accepted : CharClass)
  | whitespace
  | endOfInput
  | sequence (first : Grammar) (others : List Grammar)
  | choice (first : Grammar) (others : List Grammar)
  | many (inner : Grammar)
  | many1 (inner : Grammar)
  | sepBy (value separator : Grammar)
  | capture (inner : Grammar)
  | action (inner : Grammar) (act : Action)
  | optional (inner : Grammar)
  | label (name : Text) (inner : Grammar)
  | rule (name : Text)
  | leaf (parser : Leaf)
  | wrapped (shown : Text) (inner : Grammar)

/-- The grammars that names stand for; of two with one name the first counts. -/
abbrev Rules := List (Text × Grammar)

theorem Rules.lookup_eq_none {rules : Rules} {name : Text} (absent : name ∉ rules.map Prod.fst) :
    rules.lookup name = none :=
  List.lookup_eq_none_iff.mpr fun named member => bne_iff_ne.mpr fun same =>
    absent (List.mem_map.mpr ⟨named, member, same.symm⟩)

namespace Grammar

def token (s : String) : Grammar := literal s.toList

def letter : Grammar := char .letter

def digit : Grammar := char .digit

def oneOf (set : String) : Grammar := char (.oneOf set.toList)

def noneOf (set : String) : Grammar := char (.noneOf set.toList)

def silent (g : Grammar) : Grammar := g.action .drop

def sequence? : List Grammar → Except Error Grammar
  | [] => .error .emptySequence
  | first :: others => .ok (sequence first others)

def choice? : List Grammar → Except Error Grammar
  | [] => .error .emptyChoice
  | first :: others => .ok (choice first others)

def comma : Grammar := wrapped "Comma".toList (token ",")

def wrapper : Grammar := wrapped "Wrapper".toList (token ",")

end Grammar
end Peg
