import Peg.Tree.Basic

/-!
What a running parser reports: which operation, on which input, and how it
stands.
-/
namespace Peg

inductive Operation where
  | literal
  | letter
  | digit
  | satisfy
  | oneOf
  | noneOf
  | whitespace
  | endOfInput
  | sequence
  | choice
  | many
  | many1
  | zeroWidth
  | sepBy
  | capture
  | action
  | complete
  deriving DecidableEq

inductive Detail where
  | words (text : Text)
  | count (n : Nat)
  | set (characters : Text)
  deriving DecidableEq

inductive Verdict where
  | entered
  | ok
  | matched (parsed : Text)
  | made (tree : Option Tree)
  | failed

structure Report where
  operation : Operation
  detail : Detail
  input : Text
  verdict : Verdict

end Peg
