import Peg.Decimal.Reader
import Peg.Grammar.Parse

/-!
A reader for JSON documents. The tokens are small grammars; objects and arrays
are read member by member. Strings have no escapes, and what follows a document
is left alone.
-/
namespace Peg.Language

/-- A JSON value. The members of an object are in the order of their keys, each
key once. -/
inductive Json where
  | null
  | bool (value : Bool)
  | number (value : Float)
  | string (value : Text)
  | array (items : List Json)
  | object (members : List (Text × Json))

namespace Json

open Grammar

def insertMember (key : Text) (value : Json) : List (Text × Json) → List (Text × Json)
  | [] => [(key, value)]
  | (k, v) :: members =>
    if key = k then (key, value) :: members
    else if key < k then (key, value) :: (k, v) :: members
    else (k, v) :: insertMember key value members

def find (g : Grammar) (input : Text) : Option Match :=
  match g.parse [] input with
  | .done found => found
  | _ => none

def mark (symbol : String) : Grammar := sequence whitespace [token symbol, whitespace]

def stringToken : Grammar :=
  sequence (token "\"").silent [capture (many (noneOf "\"")), (token "\"").silent]

def numberToken : Grammar :=
  capture (sequence (optional (oneOf "-"))
    [many1 digit, optional (sequence (token ".") [many1 digit])])

def boolToken : Grammar := choice (token "true") [token "false"]

def nullToken : Grammar := token "null"

def punct (symbol : String) (input : Text) : Option Text := (find (mark symbol) input).map (·.rest)

def stringValue (input : Text) : Option (Text × Text) :=
  (find stringToken (Text.trimStart input)).map fun found =>
    let pieces := (found.tree.bind Tree.list?).getD []
    ((pieces.head?.bind Tree.text?).getD [], found.rest)

def numberValue (input : Text) : Option (Json × Text) := do
  let found ← find numberToken input
  let value ← Decimal.float? found.parsed
  pure (number value, found.rest)

def boolValue (input : Text) : Option (Json × Text) :=
  (find boolToken input).map fun found => (bool (found.parsed = "true".toList), found.rest)

def nullValue (input : Text) : Option (Json × Text) :=
  (find nullToken input).map fun found => (null, found.rest)

/-- The values of an array from here on, each with a comma behind it but perhaps
the last, and the text left. -/
def elements (value : Text → Option (Json × Text)) : (limit : Nat) → Text → List Json × Text
  | 0, input => ([], input)
  | limit + 1, input =>
    match value input with
    | none => ([], input)
    | some (item, rest) =>
      match punct "," rest with
      | none => ([item], rest)
      | some rest =>
        let (items, rest) := elements value limit rest
        (item :: items, rest)

def arrayValue (value : Text → Option (Json × Text)) (input : Text) : Option (Json × Text) := do
  let rest ← punct "[" input
  let (items, rest) := elements value (rest.length + 1) rest
  let rest ← punct "]" rest
  pure (array items, rest)

/-- Adds the members of an object from here on to those before them, each with a
comma behind it but perhaps the last. A key without a colon and a value is no
member, and then there is no object. -/
def members (value : Text → Option (Json × Text)) :
    (limit : Nat) → (before : List (Text × Json)) → Text → Option (List (Text × Json) × Text)
  | 0, before, input => some (before, input)
  | limit + 1, before, input =>
    match stringValue input with
    | none => some (before, input)
    | some (key, rest) => do
      let rest ← punct ":" rest
      let (item, rest) ← value rest
      let before := insertMember key item before
      match punct "," rest with
      | none => pure (before, rest)
      | some rest => members value limit before rest

def objectValue (value : Text → Option (Json × Text)) (input : Text) : Option (Json × Text) := do
  let rest ← punct "\x7b" input
  let (found, rest) ← members value (rest.length + 1) [] rest
  let rest ← punct "\x7d" rest
  pure (object found, rest)

def anyValue (value : Text → Option (Json × Text)) (input : Text) : Option (Json × Text) :=
  let input := Text.trimStart input
  objectValue value input <|> arrayValue value input <|>
    (stringValue input).map (fun (text, rest) => (string text, rest)) <|>
    numberValue input <|> boolValue input <|> nullValue input

/-- A value in which values are nested at most `depth` deep. -/
def value : (depth : Nat) → Text → Option (Json × Text)
  | 0, _ => none
  | depth + 1, input => anyValue (value depth) input

/-- The object, array or null that a document starts with. No text nests values
deeper than it is long. -/
def root (input : Text) : Option (Json × Text) :=
  let input := Text.trimStart input
  let inner := value (input.length + 1)
  objectValue inner input <|> arrayValue inner input <|> nullValue input

def parse (input : Text) : Json := ((root input).map (·.1)).getD null

end Json
end Peg.Language
