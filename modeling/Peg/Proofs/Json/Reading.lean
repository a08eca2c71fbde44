import Peg.Proofs.Json.Lenient
import Peg.Proofs.Json.Token

/-!
Every rendering of a document is read to its end, with the value of the document, be it
strict or lenient. A value is read from behind the blanks in front of it, and what it leaves matters
only up to blanks; so a value, a comma and the next value fit together whatever
blanks stand between them.
-/
namespace Peg.Language.Json

open Text

/-- A text from which `value` reads this value, unless a number goes on behind it. -/
structure Reading (value : Text → Option (Json × Text)) (json : Json) (text : Text) : Prop where
  nonempty : text ≠ []
  solid : Solid text
  reads : ∀ input rest, trimStart input = text ++ rest → Decimal.EndsLiteral rest →
    ∃ left, value input = some (json, left) ∧ trimStart left = trimStart rest

def Mark (c : Char) : Prop := isBlank c = false ∧ c.isDigit = false ∧ c ≠ '.'

instance (c : Char) : Decidable (Mark c) := inferInstanceAs (Decidable (_ ∧ _))

section

variable {value : Text → Option (Json × Text)} {input rest tail body : Text}

theorem Mark.trimStart {c : Char} (mark : Mark c) {blanks : Text} (blank : Blank blanks)
    (rest : Text) : Text.trimStart (blanks ++ c :: rest) = c :: rest := by
  rw [trimStart_blank_append blank]
  exact trimStart_of_solid (solid_cons mark.1 rest)

theorem Mark.ends_literal {c : Char} (mark : Mark c) {blanks : Text} (blank : Blank blanks)
    (rest : Text) : Decimal.EndsLiteral (blanks ++ c :: rest) := by
  have here : ∀ d ∈ (c :: rest).head?, d.isDigit = false ∧ d ≠ '.' := by
    rintro d ⟨⟩
    exact mark.2
  exact forall_head_append (fun b member => Decimal.not_literal_of_blank (blank b member)) here

theorem Reading.read {json : Json} {before text after : Text} {c : Char}
    (item : Reading value json text) (left : Blank before) (right : Blank after) (mark : Mark c)
    (same : trimStart input = trimStart (before ++ text ++ after ++ c :: rest)) :
    rest.length < (trimStart input).length ∧
      ∃ behind, value input = some (json, behind) ∧ trimStart behind = c :: rest := by
  have solid : Solid (text ++ (after ++ c :: rest)) := item.solid.append item.nonempty _
  rw [List.append_assoc, List.append_assoc, trimStart_blank_append left,
    trimStart_of_solid solid] at same
  refine ⟨by simp [same]; omega, ?_⟩
  obtain ⟨behind, read, ends⟩ := item.reads input _ same (mark.ends_literal right rest)
  exact ⟨behind, read, ends.trans (mark.trimStart right rest)⟩

theorem elements_enclosed {items : List Json} (enclosed : Enclosed (Reading value) items body)
    (closed : ∀ input rest, trimStart input = ']' :: rest → value input = none)
    (rest : Text) {limit : Nat} {input : Text}
    (same : trimStart input = trimStart (body ++ ']' :: rest))
    (enough : (trimStart input).length ≤ limit) :
    ∃ left, elements value (limit + 1) input = (items, left) ∧ trimStart left = ']' :: rest := by
  induction enclosed using Enclosed.induction generalizing limit input with
  | empty blank =>
    have mark : Mark ']' := by decide
    rw [mark.trimStart blank] at same
    exact ⟨input, by rw [elements, closed input rest same], same⟩
  | single left item right =>
    obtain ⟨-, behind, read, ends⟩ := item.read left right (by decide) same
    have stop : punct "," behind = none := punct_missing (c := ',') rfl (by simp [ends])
    exact ⟨behind, by simp [elements, read, stop], ends⟩
  | @cons _ _ _ _ _ later left item right _ ih =>
    rw [List.append_assoc, List.cons_append] at same
    obtain ⟨shorter, behind, read, ends⟩ := item.read left right (by decide) same
    have comma : punct "," behind = some (trimStart (later ++ ']' :: rest)) := punct_found rfl ends
    have short := trimStart_length_le (later ++ ']' :: rest)
    obtain ⟨limit, rfl⟩ := Nat.exists_eq_add_one_of_ne_zero (n := limit) (by omega)
    have fits : (trimStart (trimStart (later ++ ']' :: rest))).length ≤ limit := by
      rw [trimStart_idem]
      omega
    obtain ⟨left, reads, ends⟩ := ih (trimStart_idem _) fits
    refine ⟨left, ?_, ends⟩
    rw [elements, read]
    simp only [comma, reads]

theorem arrayValue_found {items : List Json} {left : Text} (opens : trimStart input = '[' :: tail)
    (inner : elements value ((trimStart tail).length + 1) (trimStart tail) = (items, left))
    (closes : trimStart left = ']' :: rest) :
    arrayValue value input = some (array items, trimStart rest) := by
  have opening : punct "[" input = some (trimStart tail) := punct_found rfl opens
  have closing : punct "]" left = some (trimStart rest) := punct_found rfl closes
  simp [arrayValue, opening, inner, closing]

theorem arrayValue_enclosed {items : List Json} (enclosed : Enclosed (Reading value) items body)
    (closed : ∀ input rest, trimStart input = ']' :: rest → value input = none)
    (front : trimStart input = '[' :: body ++ [']'] ++ rest) :
    arrayValue value input = some (array items, trimStart rest) := by
  have opens : trimStart input = '[' :: (body ++ ']' :: rest) := by simpa using front
  obtain ⟨left, inner, closes⟩ := elements_enclosed enclosed closed rest
    (trimStart_idem _) (congrArg List.length (trimStart_idem _)).le
  exact arrayValue_found opens inner closes

theorem arrayValue_missing (other : ∀ c ∈ (trimStart input).head?, c ≠ '[') :
    arrayValue value input = none := by
  have opening : punct "[" input = none := punct_missing rfl other
  simp [arrayValue, opening]

theorem Member.read {key : Text} {json : Json} {before text after : Text} {c : Char}
    (member : Member (Reading value) (key, json) text) (left : Blank before)
    (right : Blank after) (mark : Mark c)
    (same : trimStart input = trimStart (before ++ text ++ after ++ c :: rest)) :
    rest.length < (trimStart input).length ∧ ∃ colon item behind,
      stringValue input = some (key, colon) ∧ punct ":" colon = some item ∧
      value item = some (json, behind) ∧ trimStart behind = c :: rest := by
  cases member with
  | @intro _ _ before' after' text plain left' right' item =>
    generalize whole : after' ++ text ++ after ++ c :: rest = tail
    have front : trimStart input = '"' :: (key ++ '"' :: (before' ++ ':' :: tail)) := by
      have quote : Mark '"' := by decide
      rw [same, ← quote.trimStart left (key ++ '"' :: (before' ++ ':' :: tail)), ← whole]
      simp only [List.append_assoc, List.cons_append]
    have name : stringValue input = some (key, before' ++ ':' :: tail) :=
      stringValue_quoted plain front
    have colon : Mark ':' := by decide
    have gap : punct ":" (before' ++ ':' :: tail) = some (trimStart tail) :=
      punct_found rfl (colon.trimStart left' tail)
    have again : trimStart (trimStart tail) = trimStart (after' ++ text ++ after ++ c :: rest) := by
      rw [trimStart_idem, whole]
    obtain ⟨shorter, behind, read, ends⟩ := item.read right' right mark again
    refine ⟨?_, _, _, behind, name, gap, read, ends⟩
    have short := trimStart_length_le (trimStart tail)
    have short' := trimStart_length_le tail
    rw [front]
    simp only [List.length_cons, List.length_append]
    omega

theorem members_enclosed {pairs seen before : List (Text × Json)}
    (enclosed : Enclosed (Member (Reading value)) pairs body) (latest : Latest seen before)
    (rest : Text) {limit : Nat} {input : Text}
    (same : trimStart input = trimStart (body ++ '\x7d' :: rest))
    (enough : (trimStart input).length ≤ limit) :
    ∃ after left, members value (limit + 1) before input = some (after, left) ∧
      Latest (seen ++ pairs) after ∧ trimStart left = '\x7d' :: rest := by
  induction enclosed using Enclosed.induction generalizing seen before limit input with
  | empty blank =>
    have mark : Mark '\x7d' := by decide
    rw [mark.trimStart blank] at same
    have stop : stringValue input = none := stringValue_missing (by simp [same])
    exact ⟨before, input, by rw [members, stop], by rwa [List.append_nil], same⟩
  | @single pair _ _ _ left member right =>
    obtain ⟨key, json⟩ := pair
    obtain ⟨-, colon, item, behind, name, gap, read, ends⟩ :=
      member.read left right (by decide) same
    have stop : punct "," behind = none := punct_missing (c := ',') rfl (by simp [ends])
    refine ⟨_, behind, ?_, latest.insert key json, ends⟩
    simp [members, name, gap, read, stop]
  | @cons pair pairs _ _ _ later left member right _ ih =>
    obtain ⟨key, json⟩ := pair
    rw [List.append_assoc, List.cons_append] at same
    obtain ⟨shorter, colon, item, behind, name, gap, read, ends⟩ :=
      member.read left right (by decide) same
    have comma : punct "," behind = some (trimStart (later ++ '\x7d' :: rest)) :=
      punct_found rfl ends
    have short := trimStart_length_le (later ++ '\x7d' :: rest)
    obtain ⟨limit, rfl⟩ := Nat.exists_eq_add_one_of_ne_zero (n := limit) (by omega)
    have fits : (trimStart (trimStart (later ++ '\x7d' :: rest))).length ≤ limit := by
      rw [trimStart_idem]
      omega
    obtain ⟨after, left, reads, newest, ends⟩ :=
      ih (latest.insert key json) (trimStart_idem _) fits
    rw [List.append_assoc, List.singleton_append] at newest
    refine ⟨after, left, ?_, newest, ends⟩
    rw [members, name]
    simp only [gap, read, comma, Option.bind_eq_bind, Option.bind_some]
    exact reads

theorem objectValue_found {found : List (Text × Json)} {left : Text}
    (opens : trimStart input = '\x7b' :: tail)
    (inner : members value ((trimStart tail).length + 1) [] (trimStart tail) = some (found, left))
    (closes : trimStart left = '\x7d' :: rest) :
    objectValue value input = some (object found, trimStart rest) := by
  have opening : punct "\x7b" input = some (trimStart tail) := punct_found rfl opens
  have closing : punct "\x7d" left = some (trimStart rest) := punct_found rfl closes
  simp [objectValue, opening, inner, closing]

theorem objectValue_enclosed {pairs found : List (Text × Json)}
    (enclosed : Enclosed (Member (Reading value)) pairs body) (latest : Latest pairs found)
    (front : trimStart input = '\x7b' :: body ++ ['\x7d'] ++ rest) :
    objectValue value input = some (object found, trimStart rest) := by
  have opens : trimStart input = '\x7b' :: (body ++ '\x7d' :: rest) := by simpa using front
  obtain ⟨after, left, inner, latest', closes⟩ := members_enclosed enclosed .nil rest
    (trimStart_idem _) (congrArg List.length (trimStart_idem _)).le
  obtain rfl : after = found := latest'.unique latest
  exact objectValue_found opens inner closes

theorem objectValue_missing (other : ∀ c ∈ (trimStart input).head?, c ≠ '\x7b') :
    objectValue value input = none := by
  have opening : punct "\x7b" input = none := punct_missing rfl other
  simp [objectValue, opening]

theorem anyValue_scalar {c : Char} (front : trimStart input = c :: tail)
    (other : c ≠ '\x7b' ∧ c ≠ '[') : anyValue value input =
      (((stringValue (c :: tail)).map fun (text, rest) => (string text, rest)) <|>
        numberValue (c :: tail) <|> boolValue (c :: tail) <|> nullValue (c :: tail)) := by
  have solid : trimStart (c :: tail) = c :: tail := by rw [← front, trimStart_idem]
  have object : objectValue value (c :: tail) = none := objectValue_missing (by simp [solid, other])
  have array : arrayValue value (c :: tail) = none := arrayValue_missing (by simp [solid, other])
  simp [anyValue, front, object, array]

theorem anyValue_word {c : Char} (front : trimStart input = c :: tail)
    (other : c ≠ '\x7b' ∧ c ≠ '[' ∧ c ≠ '"' ∧ c ≠ '-' ∧ c.isDigit = false) :
    anyValue value input = (boolValue (c :: tail)).or (nullValue (c :: tail)) := by
  obtain ⟨brace, bracket, quote, sign, digit⟩ := other
  have solid : trimStart (c :: tail) = c :: tail := by rw [← front, trimStart_idem]
  have string : stringValue (c :: tail) = none := stringValue_missing (by simp [solid, quote])
  have number : numberValue (c :: tail) = none := numberValue_missing (by simp [sign, digit])
  rw [anyValue_scalar front ⟨brace, bracket⟩, string, number]
  simp

theorem anyValue_closing (front : trimStart input = ']' :: rest) : anyValue value input = none := by
  rw [anyValue_word front (by decide), boolValue_eq, nullValue_eq]
  rfl

theorem anyValue_null (front : trimStart input = "null".toList ++ rest) :
    anyValue value input = some (null, rest) := by
  rw [anyValue_word front (by decide), boolValue_eq, nullValue_eq]
  rfl

theorem anyValue_bool {b : Bool}
    (front : trimStart input = (if b then "true" else "false").toList ++ rest) :
    anyValue value input = some (bool b, rest) := by
  cases b
  · rw [anyValue_word front (by decide), boolValue_eq]
    rfl
  · rw [anyValue_word front (by decide), boolValue_eq]
    rfl

theorem anyValue_number {literal : Text} {x : Float} (signed : Decimal.Signed literal)
    (front : trimStart input = literal ++ rest)
    (stops : Decimal.EndsLiteral rest)
    (read : Decimal.float? literal = some x) : anyValue value input = some (number x, rest) := by
  have number := numberValue_literal signed stops read
  obtain ⟨c, tail, rfl, first⟩ := signed.first
  have other : c ≠ '\x7b' ∧ c ≠ '[' ∧ c ≠ '"' := by
    refine ⟨?_, ?_, ?_⟩ <;> rintro rfl <;> revert first <;> decide
  obtain ⟨brace, bracket, quote⟩ := other
  have solid : trimStart (c :: (tail ++ rest)) = c :: (tail ++ rest) := by
    rw [← List.cons_append, ← front, trimStart_idem]
  have string : stringValue (c :: (tail ++ rest)) = none :=
    stringValue_missing (by simp [solid, quote])
  rw [List.cons_append] at number
  rw [anyValue_scalar front ⟨brace, bracket⟩]
  simp [string, number]

theorem anyValue_string {content : Text} (plain : '"' ∉ content)
    (front : trimStart input = '"' :: content ++ ['"'] ++ rest) :
    anyValue value input = some (string content, rest) := by
  have quoted : trimStart input = '"' :: (content ++ '"' :: rest) := by simpa using front
  have read := stringValue_quoted plain ((congrArg trimStart quoted).symm.trans
    ((trimStart_idem input).trans quoted))
  rw [anyValue_scalar quoted (by decide), read]
  rfl

theorem anyValue_array {json : Json} {left : Text} (front : trimStart input = '[' :: tail)
    (read : arrayValue value (trimStart input) = some (json, left)) :
    anyValue value input = some (json, left) := by
  have object : objectValue value (trimStart input) = none :=
    objectValue_missing (by rw [trimStart_idem, front]; simp)
  simp [anyValue, object, read]

theorem anyValue_object {json : Json} {left : Text}
    (read : objectValue value (trimStart input) = some (json, left)) :
    anyValue value input = some (json, left) := by
  simp [anyValue, read]

theorem arrayValue_lenient {items : List Document} {json : Json} {text : Text}
    (written : Lenient (.array items) text) (means : Denotes (.array items) json)
    (inner : ∀ item found part, part.length < text.length → Lenient item part →
      Denotes item found → Reading value found part)
    (closed : ∀ input rest, trimStart input = ']' :: rest → value input = none)
    (front : trimStart input = text ++ rest) :
    arrayValue value input = some (json, trimStart rest) := by
  cases means with
  | @array _ values each =>
    cases written with
    | @array _ body enclosed =>
      have parts : Enclosed (Reading value) values body := by
        refine enclosed.replace each fun item found part short written denotes => ?_
        exact inner item found part (by simp; omega) written denotes
      exact arrayValue_enclosed parts closed front

theorem objectValue_lenient {pairs : List (Text × Document)} {json : Json} {text : Text}
    (written : Lenient (.object pairs) text) (means : Denotes (.object pairs) json)
    (inner : ∀ item found part, part.length < text.length → Lenient item part →
      Denotes item found → Reading value found part)
    (front : trimStart input = text ++ rest) :
    objectValue value input = some (json, trimStart rest) := by
  cases means with
  | @object _ values members each latest =>
    cases written with
    | @object _ body enclosed =>
      have parts : Enclosed (Member (Reading value)) values body := by
        refine enclosed.replace each fun pair found part short member denotes => ?_
        cases denotes with
        | intro denotes =>
          cases member with
          | intro plain left right written =>
            refine .intro plain left right (inner _ _ _ ?_ written denotes)
            simp at short ⊢
            omega
      exact objectValue_enclosed parts latest front

end

theorem value_closing (depth : Nat) {input rest : Text} (front : trimStart input = ']' :: rest) :
    value depth input = none := by
  cases depth with
  | zero => rfl
  | succ depth => exact anyValue_closing front

/-- A rendering is read with the value of its document, by a reader that goes as deep as the
rendering is long. -/
theorem Lenient.reading {document : Document} {json : Json} {text : Text} {depth : Nat}
    (written : Lenient document text) (means : Denotes document json)
    (fits : text.length ≤ depth) : Reading (value depth) json text := by
  -- parts are shorter than the whole, so a depth less is enough for them
  induction depth generalizing document json text with
  | zero =>
    obtain ⟨c, tail, rfl, -⟩ := written.first
    exact absurd fits (Nat.not_succ_le_zero _)
  | succ depth ih =>
    obtain ⟨c, tail, same, clear⟩ := written.first
    refine ⟨by simp [same], same ▸ solid_cons clear tail, fun input rest front stops => ?_⟩
    have inner : ∀ item found part, part.length < text.length → Lenient item part →
        Denotes item found → Reading (value depth) found part :=
      fun item found part short written means => ih written means (by omega)
    have again : trimStart (trimStart input) = text ++ rest := by rw [trimStart_idem, front]
    cases document with
    | null =>
      cases written
      cases means
      exact ⟨rest, anyValue_null front, rfl⟩
    | bool =>
      cases written
      cases means
      exact ⟨rest, anyValue_bool front, rfl⟩
    | number =>
      cases written with
      | number signed =>
        cases means with
        | number read => exact ⟨rest, anyValue_number signed front stops read, rfl⟩
    | string =>
      cases written with
      | string plain =>
        cases means
        exact ⟨rest, anyValue_string plain front, rfl⟩
    | array items =>
      have read := arrayValue_lenient written means inner (fun _ _ => value_closing depth) again
      cases written
      exact ⟨_, anyValue_array front read, trimStart_idem rest⟩
    | object pairs =>
      have read := objectValue_lenient written means inner again
      exact ⟨_, anyValue_object read, trimStart_idem rest⟩

def Document.IsRoot : Document → Prop
  | .null | .array _ | .object _ => True
  | .bool _ | .number _ | .string _ => False

theorem root_lenient {document : Document} {json : Json} {text input rest : Text}
    (isRoot : document.IsRoot) (written : Lenient document text) (means : Denotes document json)
    (front : trimStart input = text ++ rest) : ∃ left, root input = some (json, left) := by
  have again : trimStart (trimStart input) = text ++ rest := by rw [trimStart_idem, front]
  have inner : ∀ item found part, part.length < text.length → Lenient item part →
      Denotes item found → Reading (value ((trimStart input).length + 1)) found part := by
    intro item found part short written means
    refine written.reading means ?_
    rw [front, List.length_append]
    omega
  cases document with
  | bool | number | string => exact isRoot.elim
  | null =>
    cases written
    cases means
    have object : objectValue (value ((trimStart input).length + 1)) (trimStart input) = none :=
      objectValue_missing (by simp [again])
    have array : arrayValue (value ((trimStart input).length + 1)) (trimStart input) = none :=
      arrayValue_missing (by simp [again])
    have word : nullValue (trimStart input) = some (.null, rest) := by
      rw [nullValue_eq, front, after?_append]
      rfl
    exact ⟨rest, by simp [root, object, array, word]⟩
  | array items =>
    have read := arrayValue_lenient written means inner (fun _ _ => value_closing _) again
    cases written
    have object : objectValue (value ((trimStart input).length + 1)) (trimStart input) = none :=
      objectValue_missing (by simp [again])
    exact ⟨trimStart rest, by simp [root, object, read]⟩
  | object pairs =>
    have read := objectValue_lenient written means inner again
    exact ⟨trimStart rest, by simp [root, read]⟩

theorem parse_lenient {document : Document} {json : Json} {before text : Text}
    (isRoot : document.IsRoot) (left : Blank before) (written : Lenient document text)
    (means : Denotes document json) (tail : Text) : parse (before ++ text ++ tail) = json := by
  obtain ⟨c, rest, same, clear⟩ := written.first
  have solid : Solid (text ++ tail) := same ▸ solid_cons clear (rest ++ tail)
  have front : trimStart (before ++ text ++ tail) = text ++ tail := by
    rw [List.append_assoc, trimStart_blank_append left, trimStart_of_solid solid]
  obtain ⟨behind, found⟩ := root_lenient isRoot written means front
  rw [parse, found]
  rfl

theorem parse_rendering {document : Document} {json : Json} {before text : Text}
    (isRoot : document.IsRoot) (left : Blank before) (written : Rendering document text)
    (means : Denotes document json) (tail : Text) : parse (before ++ text ++ tail) = json :=
  parse_lenient isRoot left written.lenient means tail

/-- An object, an array or null comes back from any of its renderings, whatever stands behind
it, with the one value that it has. -/
theorem parse_eq_iff_denotes {document : Document} {before text : Text}
    (isRoot : document.IsRoot) (left : Blank before) (written : Rendering document text)
    (tail : Text) (json : Json) :
    parse (before ++ text ++ tail) = json ↔ Denotes document json := by
  refine ⟨?_, fun means => parse_rendering isRoot left written means tail⟩
  rintro rfl
  obtain ⟨value, means⟩ := written.denotes
  rwa [parse_rendering isRoot left written means tail]

def repeated : Document := .object [(['k'], .array [.string [], .bool true]), (['k'], .array [])]

theorem repeated_rendering :
    Rendering repeated "\x7b \"k\" :[\"\", true ],\n\"k\": []\x7d".toList := by
  have blank : Blank [] := nofun
  have space : Blank [' '] := by decide
  have items : Listed Rendering [.string [], .bool true] ([] ++ "\"\"".toList ++ [] ++
      ',' :: ([' '] ++ "true".toList ++ [' '])) :=
    .cons blank (Rendering.string nofun) blank (.single space (Rendering.bool true) space)
  have first : Member Rendering (['k'], .array [.string [], .bool true])
      ('"' :: ['k'] ++ '"' :: [' '] ++ ':' :: [] ++ _) :=
    .intro (by decide) space blank (.array items)
  have second : Member Rendering (['k'], .array [])
      ('"' :: ['k'] ++ '"' :: [] ++ ':' :: [' '] ++ _) :=
    .intro (by decide) blank space (.emptyArray blank)
  have newline : Blank ['\n'] := by decide
  exact .object (.cons space first blank (.single newline second blank))

theorem repeated_denotes : Denotes repeated (.object [(['k'], .array [])]) := by
  have first : Denotes (.array [.string [], .bool true]) (.array [.string [], .bool true]) :=
    .array (.cons (.string []) (.cons (.bool true) .nil))
  have latest := (Latest.nil.insert ['k'] (.array [.string [], .bool true])).insert ['k'] (.array [])
  exact .object (.cons (.intro first) (.cons (.intro (.array .nil)) .nil)) latest

theorem repeated_parsed :
    repeated.IsRoot ∧ Blank ['\t'] ∧
      Rendering repeated "\x7b \"k\" :[\"\", true ],\n\"k\": []\x7d".toList ∧
      parse "\t\x7b \"k\" :[\"\", true ],\n\"k\": []\x7d]5".toList =
        .object [(['k'], .array [])] := by
  have root : repeated.IsRoot := trivial
  have tab : Blank ['\t'] := by decide
  refine ⟨root, tab, repeated_rendering, ?_⟩
  exact (parse_eq_iff_denotes root tab repeated_rendering "]5".toList _).mpr repeated_denotes

end Peg.Language.Json
