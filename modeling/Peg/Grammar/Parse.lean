import Peg.Grammar.Basic
import Peg.Parser.Combinator
import Peg.Parser.Primitive

/-!
Grammars as parsers. A rule is looked up when it is met, and rules may call
each other as deep as the input can require: a rule that is met again on the
same text, inside itself, would go on so for ever.
-/
namespace Peg.Grammar

variable {m : Type → Type} [Monitor m]

mutual

def parser (call : Text → Parser m) : Grammar → Parser m
  | literal token => Parser.literal token
  | char accepted => Parser.char accepted
  | whitespace => Parser.whitespace
  | endOfInput => Parser.endOfInput
  | sequence first others => Parser.sequence (first.parser call :: parsers call others)
  | choice first others => Parser.choice (first.parser call :: parsers call others)
  | many inner => Parser.many (inner.parser call)
  | many1 inner => Parser.many1 (inner.parser call)
  | sepBy value separator => Parser.sepBy (value.parser call) (separator.parser call)
  | capture inner => Parser.capture (inner.parser call)
  | action inner act => Parser.action (inner.parser call) act
  | optional inner => Parser.optional (inner.parser call)
  | label name inner => Parser.label name (inner.parser call)
  | rule name => call name
  | leaf parser => Parser.leaf parser
  | wrapped _ inner => inner.parser call

def parsers (call : Text → Parser m) : List Grammar → List (Parser m)
  | [] => []
  | g :: gs => g.parser call :: parsers call gs

end

/-- The parser of a rule that `find` looks up, when rules may call each other `depth` deep. A
name without a rule never matches. -/
def call (find : Text → m (Option Grammar)) : (depth : Nat) → Text → Parser m
  | 0, _ => fun _ => Monitor.unfinished
  | depth + 1, name => fun input => do
    match ← find name with
    | none => pure none
    | some g => g.parser (call find depth) input

end Grammar

/-- How deep rules can call each other on a text without coming back to the same
rule at the same place, as deep as there are pairs of the two, and once more for
a name without a rule. -/
def Rules.depth (rules : Rules) (input : Text) : Nat := rules.length * (input.length + 1) + 1

namespace Grammar

def parse (rules : Rules) (g : Grammar) (input : Text) : Outcome (Option Match) :=
  g.parser (call (fun name => pure (rules.lookup name)) (rules.depth input)) input

def parseComplete (rules : Rules) (g : Grammar) (input : Text) : Outcome (Option Match) :=
  Parser.complete (g.parse rules) input

end Peg.Grammar
