import Peg.Grammar.Basic

/-!
Assignments of a number to a name, such as `width = 42`.
-/
namespace Peg.Language

open Grammar

def identifier : Grammar := capture (sequence letter [many (choice letter [digit])])

def assignment : Grammar :=
  sequence identifier [whitespace, (token "=").silent, whitespace, capture (many1 digit)]

end Peg.Language
