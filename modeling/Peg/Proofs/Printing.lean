import Peg.Match
import Peg.Proofs.Text.Delimited

/-!
Matches told apart by their printed form. Texts made anew print like pieces of the input, and whole
floats like integers; without these two a match is determined by how it is printed.
-/
namespace Peg

open Text

namespace Tree

mutual

/-- Whether a tree has neither texts made anew nor floats in it. -/
def isPlain : Tree → Bool
  | text _ => true
  | owned _ => false
  | int _ => true
  | float _ => false
  | bool _ => true
  | list items => arePlain items

def arePlain : List Tree → Bool
  | [] => true
  | item :: items => item.isPlain && arePlain items

end

inductive Shape where
  | quotation
  | number
  | truth
  | list

def shape : Tree → Shape
  | text _ | owned _ => .quotation
  | int _ | float _ => .number
  | bool _ => .truth
  | list _ => .list

def Shape.ofFirst (c : Char) : Option Shape :=
  if c = '"' then some quotation
  else if c = '[' then some list
  else if c = 't' ∨ c = 'f' then some truth
  else if c = '-' ∨ c.isDigit then some number
  else none

theorem Shape.ofFirst_number {c : Char} (front : c = '-' ∨ c.isDigit = true) :
    ofFirst c = some number := by
  unfold ofFirst
  split_ifs with quote bracket letter
  · rw [quote] at front
    exact absurd front (by decide)
  · rw [bracket] at front
    exact absurd front (by decide)
  · rcases letter with rfl | rfl <;> exact absurd front (by decide)
  · rfl

theorem render_first {tree : Tree} (plain : tree.isPlain = true) :
    ∃ c tail, tree.render = c :: tail ∧ Shape.ofFirst c = some tree.shape := by
  cases tree with
  | text piece => exact ⟨_, _, rfl, rfl⟩
  | int value =>
    obtain ⟨c, tail, same, front⟩ := ofInt_first value.toInt
    exact ⟨c, tail, same, Shape.ofFirst_number front⟩
  | bool value => cases value <;> exact ⟨_, _, rfl, rfl⟩
  | list items => exact ⟨_, _, rfl, rfl⟩
  | owned | float => cases plain

theorem shape_eq {a b : Tree} {x y : Text} (plain : a.isPlain = true) (plain' : b.isPlain = true)
    (same : a.render ++ x = b.render ++ y) : a.shape = b.shape := by
  obtain ⟨c, tail, written, shape⟩ := render_first plain
  obtain ⟨c', tail', written', shape'⟩ := render_first plain'
  rw [written, written'] at same
  rw [(List.cons.inj same).1, shape'] at shape
  exact (Option.some.inj shape).symm

theorem render_ne_cons {tree : Tree} {c : Char} (plain : tree.isPlain = true)
    (other : Shape.ofFirst c = none) (x y : Text) : tree.render ++ x ≠ c :: y := by
  obtain ⟨first, tail, written, shape⟩ := render_first plain
  rw [written]
  intro same
  rw [(List.cons.inj same).1, other] at shape
  cases shape

theorem boolText_delimited : Delimited (fun _ => True) boolText := by
  intro a b x y _ _ same
  have apart : ∀ x y, boolText true ++ x ≠ boolText false ++ y :=
    fun _ _ same => absurd (List.cons.inj same).1 (by decide)
  cases a <;> cases b
  · exact ⟨rfl, List.append_cancel_left same⟩
  · exact absurd same.symm (apart y x)
  · exact absurd same (apart x y)
  · exact ⟨rfl, List.append_cancel_left same⟩

def renderLater (items : List Tree) : Text := items.flatMap fun next => ", ".toList ++ next.render

theorem renderLater_cons (item : Tree) (items : List Tree) :
    renderLater (item :: items) = ", ".toList ++ (item.render ++ renderLater items) := by
  simp [renderLater]

theorem renderAll_cons (item : Tree) (items : List Tree) :
    renderAll (item :: items) = item.render ++ renderLater items := by
  induction items generalizing item with
  | nil => simp [renderAll, renderLater]
  | cons next items ih => simp only [renderAll, ih, renderLater_cons, List.append_assoc]

theorem endsNumber_later (items : List Tree) (x : Text) :
    EndsNumber (renderLater items ++ ']' :: x) := by
  cases items with
  | nil => simp [EndsNumber, renderLater]
  | cons item items => simp [EndsNumber, renderLater_cons]

theorem renderAll_ne_closing {item : Tree} (plain : item.isPlain = true) (items : List Tree)
    (x y : Text) : renderAll (item :: items) ++ x ≠ ']' :: y := by
  rw [renderAll_cons, List.append_assoc]
  exact render_ne_cons plain (by decide) _ _

theorem renderLater_eq {as bs : List Tree} {x y : Text} (plain : arePlain as = true)
    (plain' : arePlain bs = true) (same : renderAll as ++ ']' :: x = renderAll bs ++ ']' :: y) :
    renderLater as ++ ']' :: x = renderLater bs ++ ']' :: y := by
  cases as with
  | nil =>
    cases bs with
    | nil => exact same
    | cons b bs =>
      exact absurd same.symm (renderAll_ne_closing ((Bool.and_eq_true _ _).mp plain').1 bs _ _)
  | cons a as =>
    cases bs with
    | nil => exact absurd same (renderAll_ne_closing ((Bool.and_eq_true _ _).mp plain).1 as _ _)
    | cons b bs =>
      rw [renderAll_cons, renderAll_cons] at same
      rw [renderLater_cons, renderLater_cons, List.append_assoc, same, ← List.append_assoc]

mutual

/-- Where no digit follows, a printed tree shows the tree and where it ends. -/
theorem render_unique (a b : Tree) {x y : Text} (plain : a.isPlain = true)
    (plain' : b.isPlain = true) (endsX : EndsNumber x) (endsY : EndsNumber y)
    (same : a.render ++ x = b.render ++ y) : a = b ∧ x = y := by
  have shapes := shape_eq plain plain' same
  match a, b with
  | text piece, text piece' =>
    obtain ⟨rfl, rest⟩ := quoted_delimited trivial trivial same
    exact ⟨rfl, rest⟩
  | int value, int value' =>
    obtain ⟨number, rest⟩ := ofInt_delimited endsX endsY same
    exact ⟨congrArg int (Int64.toInt_inj.mp number), rest⟩
  | bool value, bool value' =>
    obtain ⟨rfl, rest⟩ := boolText_delimited trivial trivial same
    exact ⟨rfl, rest⟩
  | list items, list items' =>
    simp only [render, List.cons_append, List.append_assoc, List.nil_append, List.cons.injEq,
      true_and] at same
    obtain ⟨rfl, rest⟩ := renderLater_unique items items' plain plain'
      (renderLater_eq plain plain' same)
    exact ⟨rfl, rest⟩

theorem renderLater_unique (as bs : List Tree) {x y : Text} (plain : arePlain as = true)
    (plain' : arePlain bs = true) (same : renderLater as ++ ']' :: x = renderLater bs ++ ']' :: y) :
    as = bs ∧ x = y := by
  match as, bs with
  | [], [] => exact ⟨rfl, (List.cons.inj same).2⟩
  | [], b :: bs => simp [renderLater] at same
  | a :: as, [] => simp [renderLater] at same
  | a :: as, b :: bs =>
    obtain ⟨first, later⟩ := (Bool.and_eq_true _ _).mp plain
    obtain ⟨first', later'⟩ := (Bool.and_eq_true _ _).mp plain'
    simp only [renderLater_cons, List.append_assoc, List.append_cancel_left_eq] at same
    obtain ⟨rfl, behind⟩ := render_unique a b first first' (endsNumber_later _ _)
      (endsNumber_later _ _) same
    obtain ⟨rfl, rest⟩ := renderLater_unique as bs later later' behind
    exact ⟨rfl, rest⟩

end

end Tree

namespace Match

def isPlain (found : Match) : Bool := found.tree.all Tree.isPlain

/-- Matches are printed alike only when they are one match. -/
theorem render_inj {a b : Match} (plain : a.isPlain = true) (plain' : b.isPlain = true) :
    a.render = b.render ↔ a = b := by
  refine ⟨fun same => ?_, fun same => by rw [same]⟩
  obtain ⟨parsed, rest, tree⟩ := a
  obtain ⟨parsed', rest', tree'⟩ := b
  unfold render at same
  generalize "Match(parsed=".toList = first, ", rest=".toList = second,
    ", ast=".toList = third at same
  simp only [List.append_assoc] at same
  obtain ⟨rfl, behind⟩ := quoted_delimited trivial trivial (List.append_cancel_left same)
  obtain ⟨rfl, last⟩ := quoted_delimited trivial trivial (List.append_cancel_left behind)
  replace last := List.append_cancel_left last
  cases tree with
  | none =>
    cases tree' with
    | none => rfl
    | some tree' => exact absurd last.symm (Tree.render_ne_cons plain' (by decide) _ _)
  | some tree =>
    cases tree' with
    | none => exact absurd last (Tree.render_ne_cons plain (by decide) _ _)
    | some tree' =>
      have closing : EndsNumber [')'] := by simp [EndsNumber]
      obtain ⟨rfl, -⟩ := Tree.render_unique tree tree' plain plain' closing closing last
      rfl

def ofTexts (pieces : List Text) : Match := ⟨[], [], some (.list (pieces.map .text))⟩

theorem render_pair_ne_spelled :
    (ofTexts [['\u0301'], ['b']]).isPlain = true ∧
    (ofTexts ["\\u\x7b301\x7d\", \"b".toList]).isPlain = true ∧
    (ofTexts [['\u0301'], ['b']]).render ≠
      (ofTexts ["\\u\x7b301\x7d\", \"b".toList]).render := by
  refine ⟨rfl, rfl, (render_inj rfl rfl).not.mpr fun same => ?_⟩
  have lengths := congrArg (fun found => (found.tree.bind Tree.list?).map List.length) same
  exact absurd lengths (by decide)

end Match
end Peg
