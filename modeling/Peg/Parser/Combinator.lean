import Peg.Parser.Monitor

/-!
Parsers made of parsers. Nothing is ever taken back once a part has matched:
a sequence runs on, a choice keeps its first success, and a repetition takes
all it can get.
-/
namespace Peg.Parser

open Monitor

variable {m : Type → Type} [Monitor m]

def chain : List (Parser m) → Text → m (Option (List Tree × Text))
  | [], rest => pure (some ([], rest))
  | p :: ps, rest => do
    match ← p rest with
    | none => pure none
    | some found =>
      match ← chain ps found.rest with
      | none => pure none
      | some (trees, rest) => pure (some (found.tree.toList ++ trees, rest))

def sequence (ps : List (Parser m)) : Parser m := fun input => do
  note ⟨.sequence, .count ps.length, input, .entered⟩
  match ← chain ps input with
  | none => refuse .sequence (.count ps.length) input
  | some (trees, rest) =>
    let parsed ← consumed input rest
    note ⟨.sequence, .count ps.length, input, .matched parsed⟩
    pure (some ⟨parsed, rest, some (.list trees)⟩)

def firstMatch (input : Text) : List (Parser m) → (index : Nat) → m (Option (Nat × Match))
  | [], _ => pure none
  | p :: ps, index => do
    match ← p input with
    | some found => pure (some (index, found))
    | none => firstMatch input ps (index + 1)

def choice (ps : List (Parser m)) : Parser m := fun input => do
  note ⟨.choice, .count ps.length, input, .entered⟩
  match ← firstMatch input ps 0 with
  | none => refuse .choice (.count ps.length) input
  | some (index, found) =>
    note ⟨.choice, .count index, input, .ok⟩
    pure (some found)

structure Repetition where
  count : Nat
  trees : List Tree
  rest : Text

/-- Repeats a parser until it fails or consumes nothing; an empty match counts
for nothing, since it could be repeated for ever. After `count` matches there
are at most `attempts` more tries: one for each character, and one that ends. -/
def iterate (p : Parser m) : (attempts count : Nat) → Text → m Repetition
  | 0, _, _ => breach
  | attempts + 1, count, rest => do
    match ← p rest with
    | none => pure ⟨count, [], rest⟩
    | some found =>
      if found.parsed.isEmpty then
        note ⟨.zeroWidth, .count count, rest, .ok⟩
        pure ⟨count, [], rest⟩
      else
        let later ← iterate p attempts (count + 1) found.rest
        pure { later with trees := found.tree.toList ++ later.trees }

def repetition (p : Parser m) (input : Text) : m Repetition :=
  iterate p (input.length + 1) 0 input

def many (p : Parser m) : Parser m := fun input => do
  note ⟨.many, .words [], input, .entered⟩
  let found ← repetition p input
  note ⟨.many, .count found.count, input, .ok⟩
  if found.count = 0 then pure (some (.empty input))
  else
    let parsed ← consumed input found.rest
    pure (some ⟨parsed, found.rest, some (.list found.trees)⟩)

def many1 (p : Parser m) : Parser m := fun input => do
  note ⟨.many1, .words [], input, .entered⟩
  let found ← repetition p input
  if found.count = 0 then refuse .many1 (.count 0) input
  else
    note ⟨.many1, .count found.count, input, .ok⟩
    let parsed ← consumed input found.rest
    pure (some ⟨parsed, found.rest, some (.list found.trees)⟩)

/-- Repeats a separator with a value behind it until one of the two fails or
both are empty. A separator without its value is not taken. -/
def pairs (value separator : Parser m) : (attempts : Nat) → Text → m (List Tree × Text)
  | 0, _ => breach
  | attempts + 1, rest => do
    match ← separator rest with
    | none => pure ([], rest)
    | some gap =>
      match ← value gap.rest with
      | none => pure ([], rest)
      | some item =>
        if gap.parsed.isEmpty && item.parsed.isEmpty then pure ([], rest)
        else
          let (trees, last) ← pairs value separator attempts item.rest
          pure (gap.tree.toList ++ item.tree.toList ++ trees, last)

def sepBy (value separator : Parser m) : Parser m := fun input => do
  note ⟨.sepBy, .words [], input, .entered⟩
  match ← value input with
  | none =>
    note ⟨.sepBy, .words "empty list".toList, input, .ok⟩
    pure (some (.empty input))
  | some item =>
    let (later, rest) ← pairs value separator (item.rest.length + 1) item.rest
    let trees := item.tree.toList ++ later
    let parsed ← consumed input rest
    note ⟨.sepBy, .count trees.length, input, .matched parsed⟩
    pure (some ⟨parsed, rest, some (.list trees)⟩)

def capture (p : Parser m) : Parser m := fun input => do
  match ← p input with
  | none => pure none
  | some found =>
    note ⟨.capture, .words [], input, .matched found.parsed⟩
    let tree := if found.parsed.isEmpty then none else some (.text found.parsed)
    pure (some { found with tree })

def action (p : Parser m) (act : Action) : Parser m := fun input => do
  match ← p input with
  | none => pure none
  | some found =>
    let tree ← apply act found.tree
    note ⟨.action, .words [], input, .made tree⟩
    pure (some { found with tree })

def optional (p : Parser m) : Parser m := fun input => do
  match ← p input with
  | none => pure (some (.empty input))
  | some found => pure (some found)

def label (name : Text) (p : Parser m) : Parser m := fun input => within name (p input)

def complete (p : Parser m) : Parser m := fun input => do
  match ← p input with
  | none => pure none
  | some found =>
    if found.rest.isEmpty then pure (some found)
    else refuse .complete (.words "unconsumed input".toList) found.rest

end Peg.Parser
