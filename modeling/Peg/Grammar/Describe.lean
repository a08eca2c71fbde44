import Peg.Grammar.Basic
import Peg.Text.Blank

/-!
A grammar printed as a tree, one line a node, the children of a node below it
and further in.
-/
namespace Peg.Grammar

def branch : Text := "└──".toList

def trunk : Text := "|  ".toList

/-- The indent of the children of a node: every marker that leads to the node
turns into a trunk, and a marker of their own follows. -/
def deeper (indent : Text) : Text := Text.replace branch trunk indent ++ branch

mutual

/-- The tree of a grammar, each line after the indent of its node. A rule is not
followed, since it may lead back to itself. -/
def describe : Grammar → (indent : Text) → Text
  | literal token, indent => indent ++ "string(".toList ++ Text.quoted token ++ [')']
  | char accepted, indent => indent ++ accepted.describe
  | whitespace, indent => indent ++ "ws".toList
  | endOfInput, indent => indent ++ "end_of_input".toList
  | sequence first others, indent =>
    indent ++ "and".toList ++ '\n' :: first.describe (deeper indent) ++
      describeAll others (deeper indent)
  | choice first others, indent =>
    indent ++ "or".toList ++ '\n' :: first.describe (deeper indent) ++
      describeAll others (deeper indent)
  | many inner, indent => indent ++ "many".toList ++ '\n' :: inner.describe (deeper indent)
  | many1 inner, indent => indent ++ "many1".toList ++ '\n' :: inner.describe (deeper indent)
  | sepBy value separator, indent =>
    indent ++ "sep_by".toList ++ '\n' :: value.describe (deeper indent) ++
      '\n' :: separator.describe (deeper indent)
  | capture inner, indent => indent ++ "make_str".toList ++ '\n' :: inner.describe (deeper indent)
  | action inner _, indent => indent ++ "ret".toList ++ '\n' :: inner.describe (deeper indent)
  | optional inner, indent => indent ++ "optional".toList ++ '\n' :: inner.describe (deeper indent)
  | label name inner, indent =>
    indent ++ "label(".toList ++ name ++ [')'] ++ '\n' :: inner.describe (deeper indent)
  | rule _, indent => indent ++ "lazy".toList
  | leaf parser, indent => indent ++ parser.shown
  | wrapped shown _, indent => indent ++ shown

def describeAll : List Grammar → (indent : Text) → Text
  | [], _ => []
  | g :: gs, indent => '\n' :: g.describe indent ++ describeAll gs indent

end

def inspect (g : Grammar) : Text :=
  "BoxedParser(".toList ++ Text.trim (g.describe []) ++ [')']

end Peg.Grammar
