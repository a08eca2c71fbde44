import Peg.Language.Sexpr
import Peg.Proofs.Blank

/-!
Expressions in parentheses, with the texts that they may be written as and the trees that they
stand for. Neither says anything of parsers.
-/
namespace Peg.Language.Sexpr

open Text

structure Name where
  text : Text
  nonempty : text ≠ []
  plain : ∀ c ∈ text, c.isAlphanum = true

inductive Expression where
  | atom (name : Name)
  | list (items : List Expression)

namespace Expression

def isAtom : Expression → Bool
  | atom _ => true
  | list _ => false

mutual

def tree : Expression → Tree
  | atom name => .text name.text
  | list items => .list (trees items)

def trees : List Expression → List Tree
  | [] => []
  | item :: items => item.tree :: trees items

end

end Expression

open Expression

mutual

inductive Rendering : Expression → Text → Prop
  | atom (name : Name) : Rendering (.atom name) name.text
  | list {items blanks body} (blank : Blank blanks) (inner : Spaced items body) :
      Rendering (.list items) ('(' :: blanks ++ body ++ [')'])

/-- Expressions in a row with blanks behind each, at least one between two atoms. -/
inductive Spaced : List Expression → Text → Prop
  | nil : Spaced [] []
  | cons {item items text blanks body} (first : Rendering item text) (blank : Blank blanks)
      (apart : ∀ next ∈ items.head?, item.isAtom = true → next.isAtom = true → blanks ≠ [])
      (later : Spaced items body) : Spaced (item :: items) (text ++ (blanks ++ body))

end

def EndsName (rest : Text) : Prop := ∀ c ∈ rest.head?, c.isAlphanum = false

variable {e item : Expression} {items : List Expression} {text blanks body : Text}

theorem Rendering.first (written : Rendering e text) :
    ∃ c tail, text = c :: tail ∧ isBlank c = false ∧ c.isAlphanum = e.isAtom := by
  cases written with
  | atom name =>
    obtain ⟨c, tail, same⟩ := List.exists_cons_of_ne_nil name.nonempty
    have plain := name.plain c (by simp [same])
    refine ⟨c, tail, same, Bool.eq_false_iff.mpr fun blank => ?_, plain⟩
    rw [not_alphanum_of_blank blank] at plain
    cases plain
  | list => exact ⟨'(', _, rfl, by decide, rfl⟩

theorem Spaced.solid (spaced : Spaced items body) (rest : Text) : Solid (body ++ ')' :: rest) := by
  cases spaced with
  | nil => exact solid_cons (by decide) rest
  | cons first _ _ _ =>
    obtain ⟨c, tail, rfl, clear, -⟩ := first.first
    exact solid_cons clear _

theorem Spaced.ends_name (spaced : Spaced items body) (blank : Blank blanks) (rest : Text)
    (apart : ∀ next ∈ items.head?, next.isAtom = true → blanks ≠ []) :
    EndsName (blanks ++ (body ++ ')' :: rest)) := by
  intro c first
  cases blanks with
  | cons b blanks =>
    cases first
    exact not_alphanum_of_blank (blank c List.mem_cons_self)
  | nil =>
    cases spaced with
    | nil =>
      cases first
      decide
    | @cons item _ _ _ _ written =>
      obtain ⟨d, tail, rfl, -, kind⟩ := written.first
      cases first
      rw [kind]
      exact Bool.eq_false_iff.mpr fun atom => apart item rfl atom rfl

end Peg.Language.Sexpr
