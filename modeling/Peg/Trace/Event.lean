import Peg.Tree.Printer
import Peg.Trace.Column
import Peg.Trace.Report

/-!
The lines of a trace: the input, the label in force, the operation, and how it
stands.
-/
namespace Peg

def Operation.name : Operation → Text
  | literal => "string".toList
  | letter => "letter".toList
  | digit => "digit".toList
  | satisfy => "satisfy".toList
  | oneOf => "one_of".toList
  | noneOf => "none_of".toList
  | whitespace => "ws".toList
  | endOfInput => "eoi".toList
  | sequence => "and".toList
  | choice => "or".toList
  | many => "many".toList
  | many1 => "many1".toList
  | zeroWidth => "repeat: zero width match, stopping".toList
  | sepBy => "sep_by".toList
  | capture => "make_str".toList
  | action => "ret".toList
  | complete => "parse_complete".toList

def Detail.render : Detail → Text
  | words text => Text.quoted text
  | count n => Text.ofNat n
  | set characters => Text.quotedChars characters

def Verdict.render : Verdict → Text
  | entered => []
  | ok => " -> ok".toList
  | matched parsed => " -> ".toList ++ Text.quoted parsed
  | made tree => " -> ".toList ++ Tree.inspectOption tree
  | failed => " -> NoMatch".toList

namespace Trace

structure Event where
  label : Text
  report : Report

def fieldWidth : Nat := 15

def Event.render (event : Event) : Text :=
  let operation := event.report.operation.name ++ '(' :: event.report.detail.render ++ [')']
  column event.report.input ++ ' ' :: Text.padRight fieldWidth event.label ++
    " : ".toList ++ Text.padRight fieldWidth operation ++ event.report.verdict.render

end Trace
end Peg
