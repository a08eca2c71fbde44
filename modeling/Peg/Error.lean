/-!
Why there is no match: the input does not fit, or the grammar was never well
formed.
-/
namespace Peg

inductive Error where
  | noMatch
  | emptySequence
  | emptyChoice
  deriving DecidableEq

namespace Error

def name : Error → String
  | noMatch => "NoMatch"
  | emptySequence => "EmptySequence"
  | emptyChoice => "EmptyAlternation"

def message : Error → String
  | noMatch => "NoMatch"
  | emptySequence => "GrammarError: 'and' requires at least one parser"
  | emptyChoice => "GrammarError: 'or' requires at least one candidate"

/-- After a failed match another alternative can be tried; a malformed grammar
cannot be used at all. -/
def recoverable : Error → Bool
  | noMatch => true
  | emptySequence | emptyChoice => false

end Error
end Peg
