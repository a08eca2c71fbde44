import Peg.Match

/-!
The leaves of a tree from left to right, and the text that they spell.
-/
namespace Peg

namespace Tree

mutual

def leaves : Tree → List Tree
  | list items => leavesOf items
  | leaf => [leaf]

def leavesOf : List Tree → List Tree
  | [] => []
  | item :: items => leaves item ++ leavesOf items

end

/-- The text of a leaf; a number or a truth value has none. -/
def spelled (leaf : Tree) : Text := leaf.string?.getD []

theorem leavesOf_eq_flatMap (items : List Tree) : leavesOf items = items.flatMap leaves := by
  induction items with
  | nil => rfl
  | cons item items ih => rw [leavesOf, List.flatMap_cons, ih]

mutual

theorem collectText_eq (tree : Tree) (after : Text) :
    tree.collectText after = tree.leaves.flatMap spelled ++ after := by
  match tree with
  | .list items => exact collectTexts_eq items after
  | .text _ | .owned _ | .int _ | .float _ | .bool _ =>
    simp [collectText, leaves, spelled, string?]

theorem collectTexts_eq (items : List Tree) (after : Text) :
    collectTexts items after = (leavesOf items).flatMap spelled ++ after := by
  match items with
  | [] => rfl
  | item :: items =>
    rw [collectTexts, collectText_eq item, collectTexts_eq items, leavesOf, List.flatMap_append,
      List.append_assoc]

end

mutual

theorem collect_eq (tree : Tree) (after : List Tree) :
    tree.collect after = tree.leaves ++ after := by
  match tree with
  | .list items => exact collectAll_eq items after
  | .text _ | .owned _ | .int _ | .float _ | .bool _ => rfl

theorem collectAll_eq (items after : List Tree) :
    collectAll items after = leavesOf items ++ after := by
  match items with
  | [] => rfl
  | item :: items =>
    rw [collectAll, collect_eq item, collectAll_eq items, leavesOf, List.append_assoc]

end

theorem flatten_eq_leaves (tree : Tree) : tree.flatten = .list tree.leaves := by
  rw [flatten, collect_eq, List.append_nil]

theorem flattenText_eq_spelled (tree : Tree) : tree.flattenText = tree.leaves.flatMap spelled := by
  rw [flattenText, collectText_eq, List.append_nil]

end Tree

def Match.leaves (found : Match) : List Tree := found.tree.toList.flatMap Tree.leaves

def Match.flattened (found : Match) : Match := { found with tree := found.tree.map Tree.flatten }

def Match.flattenText (found : Match) : Text := (found.tree.map Tree.flattenText).getD []

theorem Match.flattenText_eq_spelled (found : Match) :
    found.flattenText = found.leaves.flatMap Tree.spelled := by
  unfold flattenText leaves
  cases found.tree with
  | none => rfl
  | some tree =>
    rw [Option.map_some, Option.getD_some, Tree.flattenText_eq_spelled, Option.toList_some,
      List.flatMap_singleton]

end Peg
