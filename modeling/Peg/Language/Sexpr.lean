import Peg.Grammar.Parse

/-!
Expressions in parentheses, such as `(add x (mul y z))`.
-/
namespace Peg.Language.Sexpr

open Grammar

def atom : Grammar := capture (many1 (choice letter [digit]))

def item : Grammar := (sequence (rule "expr".toList) [whitespace]).action .first

def group : Grammar :=
  (sequence (token "(").silent [whitespace, many item, (token ")").silent]).action .firstOrEmpty

def expr : Grammar := choice atom [group]

def rules : Rules := [("expr".toList, expr)]

def parse (input : Text) : Outcome (Option Match) := expr.parse rules input

end Peg.Language.Sexpr
