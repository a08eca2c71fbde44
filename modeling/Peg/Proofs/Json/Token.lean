import Peg.Proofs.Decimal.Literal
import Peg.Language.Json

/-!
The tokens of JSON on any text: marks with the blanks around them, strings between
quotes, numbers up to the longest literal, and words; and what a text was that a
token was read from.
-/
namespace Peg.Language.Json

open Grammar Text

variable {input rest : Text}

theorem find_of_derives {g : Grammar} {result : Option Match}
    (derived : Derives [] g input (.done result)) : find g input = result := by
  rw [find, parse_eq_of_derives derived]

theorem derives_token {word : Text} (nonempty : word ≠ []) (input : Text) :
    Derives [] (literal word) input
      (.done ((after? word input).map fun rest => ⟨word, rest, some (.text word)⟩)) := by
  cases front : after? word input with
  | some rest =>
    obtain rfl := after?_eq_some_iff.mp front
    exact .token word rest nonempty
  | none =>
    refine .tokenFails word input fun ⟨rest, same⟩ => ?_
    rw [after?_eq_some_iff.mpr same] at front
    cases front

theorem after?_missing {c : Char} {word : Text} (other : ∀ d ∈ input.head?, d ≠ c) :
    after? (c :: word) input = none := by
  refine after?_eq_none fun front => ?_
  obtain ⟨rest, rfl⟩ := front
  exact other c rfl rfl

theorem punct_eq {symbol : String} (nonempty : symbol.toList ≠ []) (input : Text) :
    punct symbol input = (after? symbol.toList (trimStart input)).map trimStart := by
  have gap : Derives [] whitespace input _ := .whitespace_of input
  have here := derives_token nonempty (trimStart input)
  cases front : after? symbol.toList (trimStart input) with
  | none =>
    rw [front] at here
    have fails : Derives [] (mark symbol) input (.done none) :=
      .sequenceFails (.tailFails gap (.headFails here))
    rw [punct, find_of_derives fails]
    rfl
  | some rest =>
    rw [front] at here
    have found : Derives [] (mark symbol) input _ :=
      .sequence (.cons gap (.cons here (.cons (.whitespace_of rest) (.nil _))))
    rw [punct, find_of_derives found]
    rfl

theorem punct_found {symbol : String} {c : Char} (single : symbol.toList = [c])
    (front : trimStart input = c :: rest) : punct symbol input = some (trimStart rest) := by
  rw [punct_eq (by simp [single]), single, front]
  simp [after?]

theorem punct_missing {symbol : String} {c : Char} (single : symbol.toList = [c])
    (other : ∀ d ∈ (trimStart input).head?, d ≠ c) : punct symbol input = none := by
  rw [punct_eq (by simp [single]), single, after?_missing other]
  rfl

theorem nullValue_eq (input : Text) :
    nullValue input = (after? "null".toList input).map fun rest => (null, rest) := by
  have found : find nullToken input = _ := find_of_derives (derives_token (by decide) input)
  rw [nullValue, found, Option.map_map]
  rfl

theorem boolValue_eq (input : Text) :
    boolValue input = ((after? "true".toList input).map fun rest => (bool true, rest)).or
      ((after? "false".toList input).map fun rest => (bool false, rest)) := by
  have trueWord : "true".toList ≠ [] := by decide
  have falseWord : "false".toList ≠ [] := by decide
  have first := derives_token trueWord input
  have second := derives_token falseWord input
  cases yes : after? "true".toList input with
  | some rest =>
    rw [yes] at first
    have found : find boolToken input = _ := find_of_derives (.choice (.here first))
    rw [boolValue, found]
    rfl
  | none =>
    rw [yes] at first
    cases no : after? "false".toList input with
    | some rest =>
      rw [no] at second
      have found : find boolToken input = _ :=
        find_of_derives (.choice (.later first (.here second)))
      rw [boolValue, found]
      rfl
    | none =>
      rw [no] at second
      have fails : find boolToken input = none :=
        find_of_derives (.choice (.later first (.later second (.nil _))))
      rw [boolValue, fails]
      rfl

theorem accepts_plain {content : Text} (plain : '"' ∉ content) :
    ∀ c ∈ content, CharClass.accepts (.noneOf "\"".toList) c = true := by
  intro c member
  have other : c ≠ '"' := fun same => plain (same ▸ member)
  simp [CharClass.accepts, other]

theorem derives_quote (rest : Text) :
    Derives [] (token "\"").silent ('"' :: rest) (.done (some ⟨['"'], rest, none⟩)) :=
  derives_silent (List.cons_ne_nil '"' []) rest

theorem stringValue_quoted {content : Text} (plain : '"' ∉ content)
    (front : trimStart input = '"' :: (content ++ '"' :: rest)) :
    stringValue input = some (content, rest) := by
  have body : Derives [] (capture (many (noneOf "\""))) (content ++ '"' :: rest) _ :=
    derives_capture_many_chars (.char _) (accepts_plain plain) (by simp [CharClass.accepts])
  have found : Derives [] stringToken _ _ :=
    .sequence (.cons (derives_quote _) (.cons body (.cons (derives_quote rest) (.nil _))))
  rw [stringValue, front, find_of_derives found]
  by_cases empty : content = []
  · subst empty
    rfl
  · simp [Match.joined, Match.after, Match.captured, empty, Tree.list?, Tree.text?]

theorem stringValue_unclosed {content : Text} (plain : '"' ∉ content)
    (front : trimStart input = '"' :: content) : stringValue input = none := by
  have body : Derives [] (capture (many (noneOf "\""))) (content ++ []) _ :=
    derives_capture_many_chars (.char _) (accepts_plain plain) nofun
  rw [List.append_nil] at body
  have closing : Derives [] (token "\"").silent [] (.done none) :=
    derives_silent_fails (by simp)
  have fails : Derives [] stringToken ('"' :: content) (.done none) :=
    .sequenceFails (.tailFails (derives_quote _) (.tailFails body (.headFails closing)))
  rw [stringValue, front, find_of_derives fails]
  rfl

theorem stringValue_missing (other : ∀ c ∈ (trimStart input).head?, c ≠ '"') :
    stringValue input = none := by
  have opening := derives_token (List.cons_ne_nil '"' []) (trimStart input)
  rw [after?_missing other] at opening
  have fails : Derives [] stringToken (trimStart input) (.done none) :=
    .sequenceFails (.headFails (.actionFails opening))
  rw [stringValue, find_of_derives fails]
  rfl

theorem find_unsigned {text : Text} (unsigned : Decimal.Unsigned text)
    (takes : Decimal.Takes [] text rest) :
    find numberToken (text ++ rest) = some ⟨text, rest, Match.captured text⟩ := by
  obtain ⟨row, parts, parsed⟩ := takes
  have sign := Decimal.derives_no_minus [] (unsigned.not_minus rest)
  exact find_of_derives (.capture_row (.cons sign parts) (by simpa [Match.empty] using parsed))

theorem find_minus {text : Text} (takes : Decimal.Takes [] text rest) :
    find numberToken ('-' :: text ++ rest) =
      some ⟨'-' :: text, rest, Match.captured ('-' :: text)⟩ := by
  obtain ⟨row, parts, parsed⟩ := takes
  have sign := Decimal.derives_minus [] (text ++ rest)
  exact find_of_derives (.capture_row (.cons sign parts) (by simpa using parsed))

theorem numberValue_literal {literal : Text} {value : Float} (signed : Decimal.Signed literal)
    (stops : Decimal.EndsLiteral rest)
    (read : Decimal.float? literal = some value) :
    numberValue (literal ++ rest) = some (number value, rest) := by
  have found : find numberToken (literal ++ rest) = some ⟨literal, rest, Match.captured literal⟩ := by
    cases signed with
    | plain unsigned => exact find_unsigned unsigned (Decimal.takes_unsigned unsigned stops)
    | minus unsigned => exact find_minus (Decimal.takes_unsigned unsigned stops)
  simp [numberValue, found, read]

/-- The longest literal at the front of a text is its number; without one there is none. -/
theorem find_number (input : Text) :
    (∃ literal rest, literal ++ rest = input ∧ Decimal.Signed literal ∧
      find numberToken input = some ⟨literal, rest, Match.captured literal⟩) ∨
    find numberToken input = none := by
  by_cases minus : '-' ∈ input.head?
  · obtain ⟨tail, rfl⟩ := List.head?_eq_some_iff.mp minus
    rcases Decimal.exists_takes [] tail with ⟨text, rest, rfl, unsigned, takes⟩ | fails
    · exact .inl ⟨_, rest, rfl, .minus unsigned, find_minus takes⟩
    · have sign := Decimal.derives_minus [] tail
      exact .inr (find_of_derives (.captureFails (.sequenceFails (.tailFails sign fails))))
  · rcases Decimal.exists_takes [] input with ⟨text, rest, rfl, unsigned, takes⟩ | fails
    · exact .inl ⟨_, rest, rfl, .plain unsigned, find_unsigned unsigned takes⟩
    · have sign := Decimal.derives_no_minus [] fun c here same => minus (same ▸ here)
      exact .inr (find_of_derives (.captureFails (.sequenceFails (.tailFails sign fails))))

theorem numberValue_missing (other : ∀ c ∈ input.head?, c ≠ '-' ∧ c.isDigit = false) :
    numberValue input = none := by
  have sign := Decimal.derives_no_minus [] fun c first => (other c first).1
  have digits : Derives [] (many1 digit) input (.done none) :=
    derives_many1_chars_fails (.char _) fun c first => (other c first).2
  have fails : Derives [] numberToken input (.done none) :=
    .captureFails (.sequenceFails (.tailFails sign (.headFails digits)))
  simp [numberValue, find_of_derives fails]

theorem punct_split {symbol : String} {c : Char} (single : symbol.toList = [c])
    (found : punct symbol input = some rest) :
    ∃ before after, Blank before ∧ Blank after ∧ input = before ++ c :: (after ++ rest) := by
  rw [punct_eq (by simp [single]), single] at found
  obtain ⟨tail, front, rfl⟩ := Option.map_eq_some_iff.mp found
  refine ⟨input.takeWhile isBlank, tail.takeWhile isBlank, blank_takeWhile _, blank_takeWhile _, ?_⟩
  calc input
      = input.takeWhile isBlank ++ trimStart input := (blanks_append_trimStart input).symm
    _ = input.takeWhile isBlank ++ c :: tail := by rw [← after?_eq_some_iff.mp front]; rfl
    _ = input.takeWhile isBlank ++ c :: (tail.takeWhile isBlank ++ trimStart tail) := by
      rw [blanks_append_trimStart]

theorem stringValue_split {content : Text} (found : stringValue input = some (content, rest)) :
    '"' ∉ content ∧ trimStart input = '"' :: (content ++ '"' :: rest) := by
  by_cases quote : ∃ tail, trimStart input = '"' :: tail
  · obtain ⟨tail, front⟩ := quote
    obtain ⟨run, behind, rfl, plain, stops⟩ := exists_run (· != '"') tail
    have plain : '"' ∉ run := fun member => by simpa using plain _ member
    cases behind with
    | nil =>
      rw [List.append_nil] at front
      rw [stringValue_unclosed plain front] at found
      cases found
    | cons c behind =>
      obtain rfl : c = '"' := by simpa using stops c rfl
      rw [stringValue_quoted plain front] at found
      cases found
      exact ⟨plain, front⟩
  · rw [stringValue_missing fun c first same => ?_] at found
    · cases found
    · subst same
      exact quote (List.head?_eq_some_iff.mp first)

theorem numberValue_split {json : Json} (found : numberValue input = some (json, rest)) :
    ∃ literal value, Decimal.Signed literal ∧ Decimal.float? literal = some value ∧
      json = number value ∧ input = literal ++ rest := by
  rcases find_number input with ⟨literal, behind, rfl, signed, matched⟩ | missing
  · obtain ⟨value, read⟩ := Decimal.exists_float? signed
    simp only [numberValue, matched, read, Option.bind_eq_bind, Option.bind_some] at found
    cases found
    exact ⟨literal, value, signed, read, rfl, rfl⟩
  · simp [numberValue, missing] at found

theorem boolValue_split {json : Json} (found : boolValue input = some (json, rest)) :
    ∃ b, json = bool b ∧ input = (if b then "true" else "false").toList ++ rest := by
  rw [boolValue_eq] at found
  rcases Option.or_eq_some_iff.mp found with yes | ⟨-, no⟩
  · obtain ⟨behind, front, same⟩ := Option.map_eq_some_iff.mp yes
    cases same
    exact ⟨true, rfl, (after?_eq_some_iff.mp front).symm⟩
  · obtain ⟨behind, front, same⟩ := Option.map_eq_some_iff.mp no
    cases same
    exact ⟨false, rfl, (after?_eq_some_iff.mp front).symm⟩

theorem nullValue_split {json : Json} (found : nullValue input = some (json, rest)) :
    json = null ∧ input = "null".toList ++ rest := by
  rw [nullValue_eq] at found
  obtain ⟨behind, front, same⟩ := Option.map_eq_some_iff.mp found
  cases same
  exact ⟨rfl, (after?_eq_some_iff.mp front).symm⟩

end Peg.Language.Json
