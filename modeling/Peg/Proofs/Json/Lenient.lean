import Peg.Proofs.Json.Document

/-!
Renderings in which one more comma may stand behind the last part of an array or an
object. Where no comma stands so, such a rendering is a rendering without the licence.
-/
namespace Peg.Language.Json

open Text

/-- What stands between two brackets: blanks only, or texts of some kind with a comma
between any two, and perhaps one behind the last of them. -/
inductive Enclosed {α : Type} (kind : α → Text → Prop) : List α → Text → Prop
  | empty {blanks} (blank : Blank blanks) : Enclosed kind [] blanks
  | listed {as text} (parts : Listed kind as text) : Enclosed kind as text
  | trailing {as text blanks} (parts : Listed kind as text) (blank : Blank blanks) :
      Enclosed kind as (text ++ ',' :: blanks)

section

variable {α : Type} {kind strict : α → Text → Prop} {a : α} {as : List α}
variable {before text after later blanks : Text}

theorem Listed.blank_append (blank : Blank blanks) (listed : Listed kind as text) :
    Listed kind as (blanks ++ text) := by
  cases listed with
  | single left only right =>
    rw [← List.append_assoc, ← List.append_assoc]
    exact .single (blank.append left) only right
  | cons left first right tail =>
    rw [← List.append_assoc, ← List.append_assoc, ← List.append_assoc]
    exact .cons (blank.append left) first right tail

theorem Listed.append_blank (listed : Listed kind as text) (blank : Blank blanks) :
    Listed kind as (text ++ blanks) := by
  induction listed with
  | single left only right =>
    rw [List.append_assoc]
    exact .single left only (right.append blank)
  | cons left first right _ ih =>
    rw [List.append_assoc, List.cons_append]
    exact .cons left first right ih

theorem Enclosed.blank_append (blank : Blank blanks) (enclosed : Enclosed kind as text) :
    Enclosed kind as (blanks ++ text) := by
  cases enclosed with
  | empty more => exact .empty (blank.append more)
  | listed parts => exact .listed (parts.blank_append blank)
  | trailing parts more =>
    rw [← List.append_assoc]
    exact .trailing (parts.blank_append blank) more

theorem Enclosed.append_blank (enclosed : Enclosed kind as text) (blank : Blank blanks) :
    Enclosed kind as (text ++ blanks) := by
  cases enclosed with
  | empty more => exact .empty (more.append blank)
  | listed parts => exact .listed (parts.append_blank blank)
  | trailing parts more =>
    rw [List.append_assoc, List.cons_append]
    exact .trailing parts (more.append blank)

theorem Enclosed.cons (left : Blank before) (first : kind a text) (right : Blank after)
    (enclosed : Enclosed kind as later) :
    Enclosed kind (a :: as) (before ++ text ++ after ++ ',' :: later) := by
  cases enclosed with
  | empty blank => exact .trailing (.single left first right) blank
  | listed parts => exact .listed (.cons left first right parts)
  | @trailing _ body blanks parts blank =>
    have listed : Listed kind (a :: as) (before ++ text ++ after ++ ',' :: body) :=
      .cons left first right parts
    have enclosed := Enclosed.trailing listed blank
    rwa [List.append_assoc, List.cons_append] at enclosed

/-- What stands between two brackets, taken part by part: nothing, one part, or a part with a
comma and what follows on it. -/
@[elab_as_elim]
theorem Enclosed.induction {motive : ∀ as text, Enclosed kind as text → Prop}
    (enclosed : Enclosed kind as text)
    (empty : ∀ {blanks} (blank : Blank blanks), motive [] blanks (.empty blank))
    (single : ∀ {a before text after} (left : Blank before) (only : kind a text)
      (right : Blank after), motive [a] _ (.listed (.single left only right)))
    (cons : ∀ {a as before text after later} (left : Blank before) (first : kind a text)
      (right : Blank after) (tail : Enclosed kind as later),
      motive as later tail → motive (a :: as) _ (tail.cons left first right)) :
    motive as text enclosed := by
  cases enclosed with
  | empty blank => exact empty blank
  | listed parts =>
    induction parts with
    | single left only right => exact single left only right
    | cons left first right tail ih => exact cons left first right (.listed tail) ih
  | @trailing _ _ blanks parts blank =>
    induction parts with
    | single left only right => exact cons left only right (.empty blank) (empty blank)
    | cons left first right tail ih =>
      have whole := cons left first right (.trailing tail blank) ih
      simpa only [List.append_assoc, List.cons_append] using whole

theorem Enclosed.replace {β : Type} {other : β → Text → Prop} {relates : α → β → Prop}
    {bs : List β} (enclosed : Enclosed kind as text) (each : List.Forall₂ relates as bs)
    (more : ∀ a b part, part.length ≤ text.length → kind a part → relates a b → other b part) :
    Enclosed other bs text := by
  have replaced {body : Text} (parts : Listed kind as body) (inside : body.length ≤ text.length) :
      Listed other bs body := by
    have bounded : Listed (fun a part => kind a part ∧ part.length ≤ body.length) as body :=
      parts.mono fun a part short written => ⟨written, short⟩
    exact bounded.replace each fun a b part known => more a b part (known.2.trans inside) known.1
  cases enclosed with
  | empty blank =>
    cases each
    exact .empty blank
  | listed parts => exact .listed (replaced parts le_rfl)
  | trailing parts blank => exact .trailing (replaced parts (by simp)) blank

/-- A comma comes before a closing bracket with only blanks between the two. -/
def HangingComma (text : Text) : Prop :=
  ∃ blanks close, Blank blanks ∧ (close = ']' ∨ close = '\x7d') ∧ ',' :: blanks ++ [close] <:+: text

theorem HangingComma.mono {part : Text} (hanging : HangingComma part) (inside : part <:+: text) :
    HangingComma text := by
  obtain ⟨blanks, close, blank, bracket, here⟩ := hanging
  exact ⟨blanks, close, blank, bracket, here.trans inside⟩

theorem Listed.strict_or_hanging (listed : Listed kind as text)
    (each : ∀ a part, part.length ≤ text.length → kind a part → strict a part ∨ HangingComma part) :
    Listed strict as text ∨ HangingComma text := by
  induction listed with
  | @single a before text after left only right =>
    have inside : text <:+: before ++ text ++ after := List.infix_append before text after
    rcases each a text inside.length_le only with strict | hanging
    · exact .inl (.single left strict right)
    · exact .inr (hanging.mono inside)
  | @cons a as before text after later left first right _ ih =>
    have head : text <:+: before ++ text ++ after ++ ',' :: later :=
      (List.infix_append before text after).trans (List.prefix_append _ _).isInfix
    have tail : later <:+: before ++ text ++ after ++ ',' :: later :=
      ((List.suffix_cons ',' later).trans (List.suffix_append _ _)).isInfix
    rcases each a text head.length_le first with strict | hanging
    · rcases ih fun a part short => each a part (short.trans tail.length_le) with listed | hanging
      · exact .inl (.cons left strict right listed)
      · exact .inr (hanging.mono tail)
    · exact .inr (hanging.mono head)

end

/-- A text that a document may be written as, where the last part of an array or an object may
have a comma behind it. -/
inductive Lenient : Document → Text → Prop
  | null : Lenient .null "null".toList
  | bool (value : Bool) : Lenient (.bool value) (if value then "true" else "false").toList
  | number {literal} (signed : Decimal.Signed literal) : Lenient (.number literal) literal
  | string {content} (plain : '"' ∉ content) : Lenient (.string content) ('"' :: content ++ ['"'])
  | array {items body} (inner : Enclosed Lenient items body) :
      Lenient (.array items) ('[' :: body ++ [']'])
  | object {pairs body} (inner : Enclosed (Member Lenient) pairs body) :
      Lenient (.object pairs) ('\x7b' :: body ++ ['\x7d'])

theorem Rendering.lenient {document : Document} {text : Text} (written : Rendering document text) :
    Lenient document text := by
  induction size : text.length using Nat.strong_induction_on generalizing document text with
  | _ n shorter =>
    subst size
    cases written with
    | null => exact .null
    | bool value => exact .bool value
    | number signed => exact .number signed
    | string plain => exact .string plain
    | emptyArray blank => exact .array (.empty blank)
    | emptyObject blank => exact .object (.empty blank)
    | @array items body inner =>
      refine .array (.listed (inner.mono fun item part short written => ?_))
      exact shorter part.length (by simp; omega) written rfl
    | @object pairs body inner =>
      refine .object (.listed (inner.mono fun pair part short member => ?_))
      obtain @⟨key, _, _, _, text, plain, left, right, written⟩ := member
      exact .intro plain left right (shorter text.length (by simp at short ⊢; omega) written rfl)

theorem Lenient.first {document : Document} {text : Text} (written : Lenient document text) :
    ∃ c tail, text = c :: tail ∧ isBlank c = false := by
  cases written with
  | bool value => cases value <;> exact ⟨_, _, rfl, by decide⟩
  | number signed =>
    obtain ⟨c, tail, same, rfl | digit⟩ := signed.first
    · exact ⟨_, tail, same, by decide⟩
    · exact ⟨c, tail, same, not_blank_of_digit digit⟩
  | _ => exact ⟨_, _, rfl, by decide⟩

theorem Lenient.rendering_or_hanging {document : Document} {text : Text}
    (written : Lenient document text) : Rendering document text ∨ HangingComma text := by
  induction size : text.length using Nat.strong_induction_on generalizing document text with
  | _ n shorter =>
    subst size
    cases written with
    | null => exact .inl .null
    | bool value => exact .inl (.bool value)
    | number signed => exact .inl (.number signed)
    | string plain => exact .inl (.string plain)
    | @array items body inner =>
      have inside : body <:+: '[' :: body ++ [']'] := List.infix_append ['['] body [']']
      cases inner with
      | empty blank => exact .inl (.emptyArray blank)
      | listed parts =>
        have each := parts.strict_or_hanging fun item part short written =>
          shorter part.length (by simp; omega) written rfl
        exact each.imp .array (·.mono inside)
      | @trailing _ text blanks parts blank =>
        refine .inr ⟨blanks, ']', blank, .inl rfl, ⟨'[' :: text, [], ?_⟩⟩
        simp
    | @object pairs body inner =>
      have inside : body <:+: '\x7b' :: body ++ ['\x7d'] := List.infix_append ['\x7b'] body ['\x7d']
      cases inner with
      | empty blank => exact .inl (.emptyObject blank)
      | listed parts =>
        have each : Listed (Member Rendering) pairs body ∨ HangingComma body := by
          refine parts.strict_or_hanging fun pair part short member => ?_
          obtain @⟨key, _, before, after, text, plain, left, right, written⟩ := member
          have last : text <:+: '"' :: key ++ '"' :: before ++ ':' :: after ++ text :=
            (List.suffix_append _ _).isInfix
          rcases shorter text.length (by simp at short ⊢; omega) written rfl with strict | hanging
          · exact .inl (.intro plain left right strict)
          · exact .inr (hanging.mono last)
        exact each.imp .object (·.mono inside)
      | @trailing _ text blanks parts blank =>
        refine .inr ⟨blanks, '\x7d', blank, .inr rfl, ⟨'\x7b' :: text, [], ?_⟩⟩
        simp

end Peg.Language.Json
