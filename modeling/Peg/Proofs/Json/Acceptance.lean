import Peg.Proofs.Json.Lenient
import Peg.Proofs.Json.Reading

/-!
Whatever is read is written. A value that comes out of a text has a document with a lenient
rendering at the front of that text. The loops over elements and members leave at a bracket
or behind one last comma, and that is all the licence a lenient rendering takes. A lenient
rendering is also read back, so what stands behind an array or an object does not count.
-/
namespace Peg.Language.Json

open Text

section

variable {α β : Type} {kind : α → Text → Prop} {relates : α → β → Prop} {b : β} {bs : List β}
variable {input rest behind next : Text}

/-- A text of some kind between blanks, which stands for `b`, and `rest` make up `input`. -/
def Yields (kind : α → Text → Prop) (relates : α → β → Prop) (input : Text) (b : β)
    (rest : Text) : Prop :=
  ∃ a before text after, Blank before ∧ kind a text ∧ relates a b ∧ Blank after ∧
    input = before ++ text ++ after ++ rest

def YieldsAll (kind : α → Text → Prop) (relates : α → β → Prop) (input : Text) (bs : List β)
    (rest : Text) : Prop :=
  ∃ as body, Enclosed kind as body ∧ List.Forall₂ relates as bs ∧ input = body ++ rest

theorem Yields.of_append {a : α} {text : Text} (written : kind a text) (means : relates a b)
    (rest : Text) : Yields kind relates (text ++ rest) b rest :=
  ⟨a, [], text, [], nofun, written, means, nofun, by simp⟩

theorem Yields.behind_blanks (yields : Yields kind relates (trimStart input) b rest) :
    Yields kind relates input b rest := by
  obtain ⟨a, before, text, after, left, written, means, right, split⟩ := yields
  refine ⟨a, input.takeWhile isBlank ++ before, text, after, (blank_takeWhile input).append left,
    written, means, right, ?_⟩
  calc input
      = input.takeWhile isBlank ++ trimStart input := (blanks_append_trimStart input).symm
    _ = input.takeWhile isBlank ++ before ++ text ++ after ++ rest := by
      rw [split]
      simp only [List.append_assoc]

theorem YieldsAll.none (input : Text) : YieldsAll kind relates input [] input :=
  ⟨[], [], .empty nofun, .nil, rfl⟩

theorem Yields.single (yields : Yields kind relates input b rest) :
    YieldsAll kind relates input [b] rest := by
  obtain ⟨a, before, text, after, left, written, means, right, rfl⟩ := yields
  exact ⟨[a], _, .listed (.single left written right), .cons means .nil, rfl⟩

theorem Yields.cons (yields : Yields kind relates input b behind)
    (comma : punct "," behind = some next) (later : YieldsAll kind relates next bs rest) :
    YieldsAll kind relates input (b :: bs) rest := by
  obtain ⟨a, before, text, after, left, written, means, right, rfl⟩ := yields
  obtain ⟨as, body, enclosed, each, rfl⟩ := later
  obtain ⟨before', after', left', right', rfl⟩ := punct_split (c := ',') rfl comma
  refine ⟨a :: as, _, .cons left written (right.append left') (enclosed.blank_append right'),
    .cons means each, ?_⟩
  simp only [List.append_assoc, List.cons_append]

theorem YieldsAll.bracketed {opens closes : String} {first last : Char}
    (single : opens.toList = [first]) (single' : closes.toList = [last])
    (opening : punct opens input = some next) (all : YieldsAll kind relates next bs behind)
    (closing : punct closes behind = some rest) :
    ∃ as before body after, Blank before ∧ Enclosed kind as body ∧ List.Forall₂ relates as bs ∧
      Blank after ∧ input = before ++ (first :: body ++ [last]) ++ after ++ rest := by
  obtain ⟨as, body, enclosed, each, rfl⟩ := all
  obtain ⟨before, left, blank, inner, rfl⟩ := punct_split single opening
  obtain ⟨right, after, inner', blank', rfl⟩ := punct_split single' closing
  refine ⟨as, before, left ++ body ++ right, after, blank,
    (enclosed.blank_append inner).append_blank inner', each, blank', ?_⟩
  simp only [List.append_assoc, List.cons_append, List.nil_append]

end

abbrev WrittenValue (value : Text → Option (Json × Text)) : Prop :=
  ∀ input json rest, value input = some (json, rest) → Yields Lenient Denotes input json rest

section

variable {value : Text → Option (Json × Text)} {input rest : Text} {json : Json}

theorem elements_written (inner : WrittenValue value) {limit : Nat} {items : List Json}
    (ran : elements value limit input = (items, rest)) :
    YieldsAll Lenient Denotes input items rest := by
  induction limit generalizing input items with
  | zero =>
    cases ran
    exact .none _
  | succ limit ih =>
    rw [elements] at ran
    cases found : value input with
    | none =>
      rw [found] at ran
      cases ran
      exact .none _
    | some pair =>
      obtain ⟨item, behind⟩ := pair
      have here := inner input item behind found
      rw [found] at ran
      cases comma : punct "," behind with
      | none =>
        simp only [comma] at ran
        cases ran
        exact here.single
      | some next =>
        simp only [comma] at ran
        cases later : elements value limit next
        rw [later] at ran
        cases ran
        exact here.cons comma (ih later)

theorem arrayValue_written (inner : WrittenValue value) : WrittenValue (arrayValue value) := by
  intro input json rest found
  simp only [arrayValue, Option.bind_eq_bind, Option.bind_eq_some_iff] at found
  obtain ⟨opened, opening, closed, closing, same⟩ := found
  cases same
  obtain ⟨documents, before, body, after, left, enclosed, each, right, split⟩ :=
    (elements_written inner rfl).bracketed rfl rfl opening closing
  exact ⟨.array documents, before, _, after, left, .array enclosed, .array each, right, split⟩

theorem member_written (inner : WrittenValue value) {key colon item : Text}
    (name : stringValue input = some (key, colon)) (gap : punct ":" colon = some item)
    (found : value item = some (json, rest)) :
    Yields (Member Lenient) (Keyed Denotes) input (key, json) rest := by
  obtain ⟨plain, front⟩ := stringValue_split name
  obtain ⟨before, after, left, right, rfl⟩ := punct_split (c := ':') rfl gap
  obtain ⟨document, before', text, after', left', written, means, right', rfl⟩ :=
    inner item json rest found
  apply Yields.behind_blanks
  refine ⟨(key, document), [], _, after', nofun,
    .intro plain left (right.append left') written, .intro means, right', ?_⟩
  rw [front]
  simp only [List.append_assoc, List.cons_append, List.nil_append]

theorem members_written (inner : WrittenValue value) {limit : Nat}
    {before after : List (Text × Json)} (ran : members value limit before input = some (after, rest)) :
    ∃ values, YieldsAll (Member Lenient) (Keyed Denotes) input values rest ∧
      ∀ seen, Latest seen before → Latest (seen ++ values) after := by
  induction limit generalizing input before with
  | zero =>
    cases ran
    exact ⟨[], .none _, fun seen latest => by rwa [List.append_nil]⟩
  | succ limit ih =>
    rw [members] at ran
    cases name : stringValue input with
    | none =>
      rw [name] at ran
      cases ran
      exact ⟨[], .none _, fun seen latest => by rwa [List.append_nil]⟩
    | some pair =>
      obtain ⟨key, colon⟩ := pair
      simp only [name, Option.bind_eq_bind, Option.bind_eq_some_iff] at ran
      obtain ⟨item, gap, ⟨json, behind⟩, found, ran⟩ := ran
      have here := member_written inner name gap found
      cases comma : punct "," behind with
      | none =>
        simp only [comma] at ran
        cases ran
        exact ⟨[(key, json)], here.single, fun seen latest => latest.insert key json⟩
      | some next =>
        simp only [comma] at ran
        obtain ⟨values, later, newest⟩ := ih ran
        refine ⟨(key, json) :: values, here.cons comma later, fun seen latest => ?_⟩
        have latest' := newest _ (latest.insert key json)
        rwa [List.append_assoc, List.singleton_append] at latest'

theorem objectValue_written (inner : WrittenValue value) : WrittenValue (objectValue value) := by
  intro input json rest found
  simp only [objectValue, Option.bind_eq_bind, Option.bind_eq_some_iff] at found
  obtain ⟨opened, opening, ⟨found, behind⟩, ran, closed, closing, same⟩ := found
  cases same
  obtain ⟨values, all, latest⟩ := members_written inner ran
  obtain ⟨pairs, before, body, after, left, enclosed, each, right, split⟩ :=
    all.bracketed rfl rfl opening closing
  have means : Denotes (.object pairs) (.object found) := .object each (latest [] .nil)
  exact ⟨.object pairs, before, _, after, left, .object enclosed, means, right, split⟩

theorem stringValue_written {content : Text} (found : stringValue input = some (content, rest)) :
    Yields Lenient Denotes input (string content) rest := by
  obtain ⟨plain, front⟩ := stringValue_split found
  have yields := Yields.of_append (Lenient.string plain) (Denotes.string content) rest
  rw [List.append_assoc, List.cons_append, List.singleton_append, ← front] at yields
  exact yields.behind_blanks

theorem numberValue_written : WrittenValue numberValue := by
  intro input json rest found
  obtain ⟨literal, x, signed, read, rfl, rfl⟩ := numberValue_split found
  exact .of_append (.number signed) (.number read) rest

theorem boolValue_written : WrittenValue boolValue := by
  intro input json rest found
  obtain ⟨b, rfl, rfl⟩ := boolValue_split found
  exact .of_append (.bool b) (.bool b) rest

theorem nullValue_written : WrittenValue nullValue := by
  intro input json rest found
  obtain ⟨rfl, rfl⟩ := nullValue_split found
  exact .of_append .null .null rest

theorem anyValue_written (inner : WrittenValue value) : WrittenValue (anyValue value) := by
  intro input json rest found
  apply Yields.behind_blanks
  simp only [anyValue, Option.orElse_eq_orElse, Option.orElse_eq_or, Option.or_eq_some_iff] at found
  rcases found with object | ⟨-, array | ⟨-, text | ⟨-, number | ⟨-, bool | ⟨-, null⟩⟩⟩⟩⟩
  · exact objectValue_written inner _ json rest object
  · exact arrayValue_written inner _ json rest array
  · obtain ⟨⟨content, behind⟩, read, same⟩ := Option.map_eq_some_iff.mp text
    cases same
    exact stringValue_written read
  · exact numberValue_written _ json rest number
  · exact boolValue_written _ json rest bool
  · exact nullValue_written _ json rest null

end

theorem value_written (depth : Nat) : WrittenValue (value depth) := by
  induction depth with
  | zero => exact fun _ _ _ found => nomatch found
  | succ depth ih => exact anyValue_written ih

theorem root_written : WrittenValue root := by
  intro input json rest found
  apply Yields.behind_blanks
  have inner := value_written ((trimStart input).length + 1)
  simp only [root, Option.orElse_eq_orElse, Option.orElse_eq_or, Option.or_eq_some_iff] at found
  rcases found with object | ⟨-, array | ⟨-, null⟩⟩
  · exact objectValue_written inner _ json rest object
  · exact arrayValue_written inner _ json rest array
  · exact nullValue_written _ json rest null

inductive IsContainer : Json → Prop
  | array (items) : IsContainer (.array items)
  | object (members) : IsContainer (.object members)

/-- A text that is parsed as an array or an object starts, behind blanks, with a lenient
rendering of a document with this value; and the rendering needs no licence unless a comma
comes before a closing bracket. -/
theorem parse_container_written {input : Text} (container : (parse input).IsContainer) :
    ∃ document before text tail, Blank before ∧ input = before ++ text ++ tail ∧
      Lenient document text ∧ Denotes document (parse input) ∧
      (Rendering document text ∨ HangingComma text) := by
  cases found : root input with
  | none =>
    rw [parse, found] at container
    cases container
  | some pair =>
    obtain ⟨json, rest⟩ := pair
    have same : parse input = json := by rw [parse, found]; rfl
    obtain ⟨document, before, text, after, left, lenient, means, -, split⟩ := root_written _ _ _ found
    rw [List.append_assoc] at split
    exact ⟨document, before, text, after ++ rest, left, split, lenient, same ▸ means,
      lenient.rendering_or_hanging⟩

def trailing : Text := ['[', 'n', 'u', 'l', 'l', ',', ']']

theorem trailing_parsed : parse trailing = .array [.null] := by
  have item (depth : Nat) : value (depth + 1) "null,]".toList = some (.null, ",]".toList) :=
    anyValue_null rfl
  have comma : punct "," ",]".toList = some "]".toList := rfl
  have stop (depth : Nat) : value depth "]".toList = none := value_closing depth rfl
  have inner : elements (value 8) 7 "null,]".toList = ([.null], "]".toList) := by
    simp only [elements, item, comma, stop]
  have opens : trimStart "[null,]".toList = '[' :: "null,]".toList := rfl
  have closes : trimStart "]".toList = ']' :: [] := rfl
  have array : arrayValue (value 8) "[null,]".toList = some (.array [.null], []) :=
    arrayValue_found opens inner closes
  have object : objectValue (value 8) "[null,]".toList = none :=
    objectValue_missing (by rw [opens]; simp)
  have found : root trailing = (objectValue (value 8) "[null,]".toList <|>
      arrayValue (value 8) "[null,]".toList <|> nullValue "[null,]".toList) := rfl
  rw [parse, found, object, array]
  rfl

/-- The comma behind the last element is taken, and no rendering of the array has one. -/
theorem trailing_not_written : parse trailing = .array [.null] ∧
    ¬ ∃ document before text tail, Blank before ∧ trailing = before ++ text ++ tail ∧
      Rendering document text ∧ Denotes document (.array [.null]) := by
  refine ⟨trailing_parsed, ?_⟩
  rintro ⟨document, before, text, tail, blank, split, written, means⟩
  cases means with
  | array each =>
    obtain _ | ⟨item, _ | _⟩ := each
    cases item
    cases written with
    | array listed =>
      cases listed with
      | cons _ _ _ tail => cases tail
      | @single _ left _ right blank' only blank'' =>
        cases only
        have bracket : Mark '[' := by decide
        have letter : Mark 'n' := by decide
        have close : Mark ']' := by decide
        have opened : trailing = '[' :: (left ++ ("null".toList ++ (right ++ ']' :: tail))) := by
          refine Eq.trans (congrArg trimStart split) (Eq.trans ?_ (bracket.trimStart blank _))
          simp only [List.append_assoc, List.cons_append, List.nil_append]
        have word := (congrArg trimStart (List.cons.inj opened).2).trans (letter.trimStart blank' _)
        have closed := (congrArg (trimStart <| List.drop 4 ·) word).trans (close.trimStart blank'' _)
        exact absurd (List.cons.inj closed).1 (by decide)

theorem trailing_container_written : (parse trailing).IsContainer ∧
    ∃ document before text tail, Blank before ∧ trailing = before ++ text ++ tail ∧
      Lenient document text ∧ Denotes document (parse trailing) ∧
      (Rendering document text ∨ HangingComma text) := by
  have container : (parse trailing).IsContainer := by
    rw [trailing_parsed]
    exact .array [.null]
  exact ⟨container, parse_container_written container⟩

theorem Denotes.isRoot {document : Document} {json : Json} (means : Denotes document json)
    (container : json.IsContainer) : document.IsRoot := by
  cases container <;> cases means <;> exact trivial

/-- An array or an object ends with a bracket of its own, so no text behind it changes what
is parsed. -/
theorem parse_append {input : Text} (container : (parse input).IsContainer) (more : Text) :
    parse (input ++ more) = parse input := by
  cases found : root input with
  | none =>
    rw [parse, found] at container
    cases container
  | some pair =>
    obtain ⟨json, rest⟩ := pair
    have same : parse input = json := by rw [parse, found]; rfl
    rw [same] at container ⊢
    obtain ⟨document, before, text, after, left, written, means, -, rfl⟩ := root_written _ _ _ found
    calc parse (before ++ text ++ after ++ rest ++ more)
        = parse (before ++ text ++ (after ++ rest ++ more)) := by simp only [List.append_assoc]
      _ = json := parse_lenient (means.isRoot container) left written means _

theorem trailing_append_number : (parse trailing).IsContainer ∧
    parse (trailing ++ "12[".toList) = .array [.null] := by
  have container : (parse trailing).IsContainer := by
    rw [trailing_parsed]
    exact .array [.null]
  exact ⟨container, (parse_append container _).trans trailing_parsed⟩

end Peg.Language.Json
