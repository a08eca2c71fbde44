/-!
Sets of characters given by spans of code points, as the tables of character
properties list them.
-/
namespace Peg.Text

/-- The code points from `first` to `last`, both included. -/
structure Span where
  first : Nat
  last : Nat

abbrev CharSet := List Span

namespace CharSet

def contains (set : CharSet) (c : Char) : Bool :=
  set.any fun span => span.first ≤ c.toNat && c.toNat ≤ span.last

theorem contains_iff {set : CharSet} {c : Char} :
    set.contains c = true ↔ ∃ span ∈ set, span.first ≤ c.toNat ∧ c.toNat ≤ span.last := by
  simp [contains, List.any_eq_true]

end CharSet
end Peg.Text
