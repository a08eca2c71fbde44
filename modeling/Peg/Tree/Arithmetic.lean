import Peg.Tree.Action

/-!
Arithmetic on the flat lists that values with operators between them leave: a
value, then an operator and a value, any number of times.
-/
namespace Peg.Tree

def addChecked (a b : Int64) : Except Fault Int64 :=
  let sum := a.toInt + b.toInt
  if Int64.minValue.toInt ≤ sum ∧ sum ≤ Int64.maxValue.toInt then .ok (Int64.ofInt sum)
  else .error .addOverflow

def subtractChecked (a b : Int64) : Except Fault Int64 :=
  let difference := a.toInt - b.toInt
  if Int64.minValue.toInt ≤ difference ∧ difference ≤ Int64.maxValue.toInt then
    .ok (Int64.ofInt difference)
  else .error .subtractOverflow

variable {α : Type}

/-- Works off operators and values from left to right. There is no result when an
operator has no value behind it, or when one of the two is not what it should be;
then nothing further right is looked at. -/
def foldPairs (operand : Tree → Option α) (apply : Text → α → α → Except Fault (Option α))
    (total : α) : List Tree → Except Fault (Option α)
  | [] => .ok (some total)
  | [_] => .ok none
  | operator :: value :: items =>
    match operand value, operator.text? with
    | some right, some symbol =>
      match apply symbol total right with
      | .ok (some new) => foldPairs operand apply new items
      | .ok none => .ok none
      | .error fault => .error fault
    | _, _ => .ok none

theorem foldPairs_gap {operand : Tree → Option α}
    {apply : Text → α → α → Except Fault (Option α)} {total : α} {symbol : Text}
    {items : List Tree} (start : items = [] ∨ ∃ piece later, items = text piece :: later)
    (missing : ∀ piece, operand (text piece) = none) :
    foldPairs operand apply total (text symbol :: items) = .ok none := by
  rcases start with rfl | ⟨piece, later, rfl⟩
  · rfl
  · simp [foldPairs, missing]

/-- Works off a list that starts with a value; a missing tree, one that is no
list, and an empty list have no result. -/
def foldOperators (operand : Tree → Option α) (apply : Text → α → α → Except Fault (Option α))
    (tree : Option Tree) : Except Fault (Option α) :=
  match tree.bind list? with
  | some (value :: items) =>
    match operand value with
    | some total => foldPairs operand apply total items
    | none => .ok none
  | _ => .ok none

end Peg.Tree
