import Peg.Proofs.Decimal.Literal
import Peg.Proofs.Json.Latest

/-!
JSON documents as trees, with the texts that they may be written as and the values
that they stand for. Neither says anything of parsers. An object is written with
its pairs in any order and with keys more than once; its value has every key once.
-/
namespace Peg.Language.Json

open Text

/-- A document, with numbers as they are written. -/
inductive Document where
  | null
  | bool (value : Bool)
  | number (literal : Text)
  | string (content : Text)
  | array (items : List Document)
  | object (pairs : List (Text × Document))

section

variable {α : Type}

/-- Texts of some kind in a row, at least one, with blanks around each and a comma between
any two. -/
inductive Listed (kind : α → Text → Prop) : List α → Text → Prop
  | single {a before text after} (left : Blank before) (only : kind a text) (right : Blank after) :
      Listed kind [a] (before ++ text ++ after)
  | cons {a as before text after later} (left : Blank before) (first : kind a text)
      (right : Blank after) (tail : Listed kind as later) :
      Listed kind (a :: as) (before ++ text ++ after ++ ',' :: later)

inductive Member (kind : α → Text → Prop) : Text × α → Text → Prop
  | intro {key a before after text} (plain : '"' ∉ key) (left : Blank before) (right : Blank after)
      (value : kind a text) :
      Member kind (key, a) ('"' :: key ++ '"' :: before ++ ':' :: after ++ text)

end

inductive Rendering : Document → Text → Prop
  | null : Rendering .null "null".toList
  | bool (value : Bool) : Rendering (.bool value) (if value then "true" else "false").toList
  | number {literal} (signed : Decimal.Signed literal) : Rendering (.number literal) literal
  | string {content} (plain : '"' ∉ content) : Rendering (.string content) ('"' :: content ++ ['"'])
  | emptyArray {blanks} (blank : Blank blanks) : Rendering (.array []) ('[' :: blanks ++ [']'])
  | array {items body} (inner : Listed Rendering items body) :
      Rendering (.array items) ('[' :: body ++ [']'])
  | emptyObject {blanks} (blank : Blank blanks) :
      Rendering (.object []) ('\x7b' :: blanks ++ ['\x7d'])
  | object {pairs body} (inner : Listed (Member Rendering) pairs body) :
      Rendering (.object pairs) ('\x7b' :: body ++ ['\x7d'])

inductive Keyed {α β : Type} (relates : α → β → Prop) : Text × α → Text × β → Prop
  | intro {key a b} (value : relates a b) : Keyed relates (key, a) (key, b)

/-- The value that a document stands for. -/
inductive Denotes : Document → Json → Prop
  | null : Denotes .null .null
  | bool (value) : Denotes (.bool value) (.bool value)
  | number {literal value} (read : Decimal.float? literal = some value) :
      Denotes (.number literal) (.number value)
  | string (content) : Denotes (.string content) (.string content)
  | array {items values} (each : List.Forall₂ Denotes items values) :
      Denotes (.array items) (.array values)
  | object {pairs values members} (each : List.Forall₂ (Keyed Denotes) pairs values)
      (latest : Latest values members) : Denotes (.object pairs) (.object members)

section

variable {α β : Type} {kind wider : α → Text → Prop} {other : β → Text → Prop}
variable {relates : α → β → Prop} {as : List α} {bs : List β} {text : Text}

theorem Listed.mono (listed : Listed kind as text)
    (more : ∀ a part, part.length ≤ text.length → kind a part → wider a part) :
    Listed wider as text := by
  induction listed with
  | @single a before text after left only right =>
    have short : text.length ≤ (before ++ text ++ after).length := by
      simp only [List.length_append]
      omega
    exact .single left (more a text short only) right
  | @cons a as before text after later left first right _ ih =>
    have short : text.length ≤ (before ++ text ++ after ++ ',' :: later).length := by
      simp only [List.length_append]
      omega
    refine .cons left (more a text short first) right (ih fun a part small inside => ?_)
    refine more a part (small.trans ?_) inside
    simp only [List.length_append, List.length_cons]
    omega

theorem Listed.replace (listed : Listed kind as text) (each : List.Forall₂ relates as bs)
    (more : ∀ a b part, kind a part → relates a b → other b part) : Listed other bs text := by
  induction listed generalizing bs with
  | single left only right =>
    obtain _ | ⟨here, _ | _⟩ := each
    exact .single left (more _ _ _ only here) right
  | cons left first right _ ih =>
    obtain _ | ⟨here, later⟩ := each
    exact .cons left (more _ _ _ first here) right (ih later)

theorem Listed.exists_forall₂ (listed : Listed kind as text)
    (every : ∀ a part, kind a part → ∃ b, relates a b) : ∃ bs, List.Forall₂ relates as bs := by
  induction listed with
  | single _ only _ =>
    obtain ⟨b, here⟩ := every _ _ only
    exact ⟨[b], .cons here .nil⟩
  | cons _ first _ _ ih =>
    obtain ⟨b, here⟩ := every _ _ first
    obtain ⟨bs, later⟩ := ih
    exact ⟨b :: bs, .cons here later⟩

end

theorem Rendering.denotes {document : Document} {text : Text} (written : Rendering document text) :
    ∃ value, Denotes document value := by
  induction size : text.length using Nat.strong_induction_on generalizing document text with
  | _ n shorter =>
    subst size
    cases written with
    | null => exact ⟨_, .null⟩
    | bool => exact ⟨_, .bool _⟩
    | number signed =>
      obtain ⟨x, read⟩ := Decimal.exists_float? signed
      exact ⟨_, .number read⟩
    | string => exact ⟨_, .string _⟩
    | emptyArray => exact ⟨_, .array .nil⟩
    | emptyObject => exact ⟨_, .object .nil .nil⟩
    | @array items body inner =>
      have every : Listed (fun item _ => ∃ value, Denotes item value) items body :=
        inner.mono fun item part short written => shorter part.length (by simp; omega) written rfl
      obtain ⟨values, each⟩ := every.exists_forall₂ fun _ _ known => known
      exact ⟨_, .array each⟩
    | @object pairs body inner =>
      have every : Listed (fun pair _ => ∃ value, Keyed Denotes pair value) pairs body := by
        refine inner.mono fun pair part short member => ?_
        obtain @⟨key, _, _, _, text, _, _, _, written⟩ := member
        obtain ⟨value, denotes⟩ := shorter text.length (by simp at short ⊢; omega) written rfl
        exact ⟨_, .intro denotes⟩
      obtain ⟨values, each⟩ := every.exists_forall₂ fun _ _ known => known
      obtain ⟨members, latest⟩ := exists_latest values
      exact ⟨_, .object each latest⟩

end Peg.Language.Json
