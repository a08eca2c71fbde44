import Peg.Tree.Arithmetic
import Peg.Grammar.Parse

/-!
Sums and differences of whole numbers, such as `1 + 2 - 3`, worked out from left
to right while they are read. A result that does not fit breaks off the parse.
-/
namespace Peg.Language.Sum

open Grammar

def integer : Grammar :=
  (capture (sequence (optional (oneOf "-")) [many1 digit])).action .readInt

def operator : Grammar := (sequence whitespace [oneOf "+-", whitespace]).action .first

def applyOperator (symbol : Text) (a b : Int64) : Except Fault (Option Int64) :=
  (if symbol = ['+'] then Tree.addChecked a b else Tree.subtractChecked a b).map some

def total : Action := fun tree =>
  (Tree.foldOperators Tree.int? applyOperator tree).map (·.map .int)

def sum : Grammar := (sepBy integer operator).action total

end Peg.Language.Sum
