import Peg.Tree.Printer

/-!
A successful parse: the text consumed, the text left, and the tree built from
what was consumed.
-/
namespace Peg

/-- What a parser found at the front of its input. A missing tree is told apart
from an empty one: it leaves no place in an enclosing list. -/
structure Match where
  parsed : Text
  rest : Text
  tree : Option Tree

namespace Match

def empty (input : Text) : Match := ⟨[], input, none⟩

def same (a b : Match) : Bool := a.parsed == b.parsed && a.rest == b.rest && a.tree == b.tree

instance : BEq Match := ⟨same⟩

def render (found : Match) : Text :=
  "Match(parsed=".toList ++ Text.quoted found.parsed ++ ", rest=".toList ++
    Text.quoted found.rest ++ ", ast=".toList ++
    (found.tree.map Tree.render).getD "null".toList ++ [')']

theorem rest_length_lt {input : Text} {found : Match}
    (split : found.parsed ++ found.rest = input) (nonempty : found.parsed ≠ []) :
    found.rest.length < input.length := by
  have some := List.length_pos_iff.mpr nonempty
  rw [← split, List.length_append]
  omega

theorem pair_rest_length_lt {input : Text} {before found : Match}
    (left : before.parsed ++ before.rest = input) (right : found.parsed ++ found.rest = before.rest)
    (nonempty : ¬ (before.parsed = [] ∧ found.parsed = [])) :
    found.rest.length < input.length := by
  have some : before.parsed.length + found.parsed.length ≠ 0 := by
    simpa [Nat.add_eq_zero_iff] using nonempty
  rw [← left, ← right]
  simp only [List.length_append]
  omega

end Match
end Peg
