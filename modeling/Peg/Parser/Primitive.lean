import Peg.CharClass
import Peg.Leaf
import Peg.Parser.Monitor
import Peg.Text.Blank

/-!
The parsers that consist of no others.
-/
namespace Peg.Parser

open Monitor

variable {m : Type → Type} [Monitor m]

/-- A token at the front of the input. The empty token always matches and
contributes nothing. -/
def literal (token : Text) : Parser m := fun input => do
  if token.isEmpty then
    note ⟨.literal, .words [], input, .ok⟩
    pure (some (.empty input))
  else
    note ⟨.literal, .words token, input, .entered⟩
    match Text.after? token input with
    | some rest =>
      let parsed ← consumed input rest
      note ⟨.literal, .words token, input, .ok⟩
      pure (some ⟨parsed, rest, some (.text parsed)⟩)
    | none => refuse .literal (.words token) input

def char (accepted : CharClass) : Parser m := fun input => do
  note ⟨accepted.operation, accepted.detail, input, .entered⟩
  match input with
  | [] => refuse accepted.operation accepted.detail input
  | c :: rest =>
    if accepted.accepts c then
      note ⟨accepted.operation, accepted.detail, input, .matched [c]⟩
      pure (some ⟨[c], rest, some (.text [c])⟩)
    else refuse accepted.operation accepted.detail input

def whitespace : Parser m := fun input => do
  let rest := Text.trimStart input
  note ⟨.whitespace, .words [], input, .ok⟩
  let parsed ← consumed input rest
  pure (some ⟨parsed, rest, none⟩)

def endOfInput : Parser m := fun input => do
  if input.isEmpty then
    note ⟨.endOfInput, .words [], input, .ok⟩
    pure (some (.empty input))
  else refuse .endOfInput (.words []) input

def leaf (parser : Leaf) : Parser m := fun input => pure (parser.run input)

end Peg.Parser
