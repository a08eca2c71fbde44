import Peg.Text.Quoted
import Peg.Trace.Report

/-!
The tests for a single character.
-/
namespace Peg

/-- Which characters a single-character parser accepts. Every character of a
set stands for itself: there are no ranges. -/
inductive CharClass where
  | letter
  | digit
  | satisfy (test : Char → Bool)
  | oneOf (set : Text)
  | noneOf (set : Text)

namespace CharClass

def accepts : CharClass → Char → Bool
  | letter, c => c.isAlpha
  | digit, c => c.isDigit
  | satisfy test, c => test c
  | oneOf set, c => set.contains c
  | noneOf set, c => !set.contains c

def operation : CharClass → Operation
  | letter => .letter
  | digit => .digit
  | satisfy _ => .satisfy
  | oneOf _ => .oneOf
  | noneOf _ => .noneOf

def detail : CharClass → Detail
  | oneOf set | noneOf set => .set set
  | _ => .words []

def describe : CharClass → Text
  | letter => "letter".toList
  | digit => "digit".toList
  | satisfy _ => "satisfy".toList
  | oneOf set => "one_of(".toList ++ Text.quoted set ++ [')']
  | noneOf set => "none_of(".toList ++ Text.quoted set ++ [')']

end CharClass
end Peg
