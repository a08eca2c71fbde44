import Peg.Tree.Arithmetic
import Peg.Grammar.Parse

/-!
A calculator on floats: the four operations from left to right, products before
sums, and parentheses.
-/
namespace Peg.Language.Calculator

open Grammar

def number : Grammar :=
  (capture (sequence (many1 digit) [optional (sequence (token ".") [many1 digit])])).action
    .readFloat

def operator (symbols : String) : Grammar :=
  (sequence whitespace [oneOf symbols, whitespace]).action .first

def applyOperator (symbol : Text) (a b : Float) : Except Fault (Option Float) :=
  .ok <|
    if symbol = ['+'] then some (a + b)
    else if symbol = ['-'] then some (a - b)
    else if symbol = ['*'] then some (a * b)
    else if symbol = ['/'] then some (a / b)
    else none

def total : Action := fun tree =>
  (Tree.foldOperators Tree.float? applyOperator tree).map (·.map .float)

def group : Grammar :=
  (sequence (token "(").silent
    [whitespace, rule "expr".toList, whitespace, (token ")").silent]).action .first

def factor : Grammar := choice number [group]

def term : Grammar := (sepBy factor (operator "*/")).action total

def expr : Grammar := (sepBy term (operator "+-")).action total

def rules : Rules := [("expr".toList, expr)]

def line : Grammar := sequence whitespace [expr, whitespace, endOfInput]

def evaluate (input : Text) : Option Float :=
  match line.parse rules input with
  | .done (some found) =>
    (found.tree.bind Tree.list?).bind fun items => items.head?.bind Tree.float?
  | _ => none

end Peg.Language.Calculator
