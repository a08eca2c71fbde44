import Peg.Proofs.Leaves

/-!
Flattening keeps the leaves of a tree and the text they spell. Which leaves a tree has, and in
which order, is said by addresses: the numbers of the items that lead from the root to a leaf.
-/
namespace Peg.Tree

/-- The part of a tree at an address, where each number picks an item of the list reached so far. -/
def part? : Tree → (address : List Nat) → Option Tree
  | tree, [] => some tree
  | list items, i :: address => items[i]?.bind (part? · address)
  | _, _ :: _ => none

def LeafAt (tree : Tree) (address : List Nat) (leaf : Tree) : Prop :=
  tree.part? address = some leaf ∧ leaf.isList = false

mutual

/-- The leaves of a tree from left to right, each with its address. -/
def placed : Tree → List (List Nat × Tree)
  | list items => placedFrom 0 items
  | leaf => [([], leaf)]

def placedFrom (i : Nat) : List Tree → List (List Nat × Tree)
  | [] => []
  | item :: items =>
    (placed item).map (fun place => (i :: place.1, place.2)) ++ placedFrom (i + 1) items

end

mutual

theorem placed_leaves (tree : Tree) : tree.placed.map Prod.snd = tree.leaves := by
  match tree with
  | .list items => exact placedFrom_leaves 0 items
  | .text _ | .owned _ | .int _ | .float _ | .bool _ => rfl

theorem placedFrom_leaves (i : Nat) (items : List Tree) :
    (placedFrom i items).map Prod.snd = leavesOf items := by
  match items with
  | [] => rfl
  | item :: items =>
    rw [placedFrom, List.map_append, List.map_map, placedFrom_leaves (i + 1) items, leavesOf,
      ← placed_leaves item]
    rfl

end

theorem leafAt_list {items : List Tree} {address : List Nat} {leaf : Tree} :
    (list items).LeafAt address leaf ↔
      ∃ i inner item, address = i :: inner ∧ items[i]? = some item ∧ item.LeafAt inner leaf := by
  constructor
  · rintro ⟨found, solid⟩
    cases address with
    | nil =>
      cases found
      cases solid
    | cons i inner =>
      obtain ⟨item, picked, below⟩ := Option.bind_eq_some_iff.mp found
      exact ⟨i, inner, item, rfl, picked, below, solid⟩
  · rintro ⟨i, inner, item, rfl, picked, below, solid⟩
    exact ⟨Option.bind_eq_some_iff.mpr ⟨item, picked, below⟩, solid⟩

theorem leafAt_of_leaf {tree : Tree} (solid : tree.isList = false) {address : List Nat}
    {leaf : Tree} : tree.LeafAt address leaf ↔ (address, leaf) = ([], tree) := by
  constructor
  · rintro ⟨found, -⟩
    cases address with
    | nil =>
      cases found
      rfl
    | cons i inner => cases tree <;> cases solid <;> cases found
  · rintro ⟨⟩
    exact ⟨by cases tree <;> rfl, solid⟩

mutual

theorem mem_placed (tree : Tree) (address : List Nat) (leaf : Tree) :
    (address, leaf) ∈ tree.placed ↔ tree.LeafAt address leaf := by
  match tree with
  | .list items =>
    rw [placed, mem_placedFrom 0 items, leafAt_list]
    simp only [Nat.zero_add]
  | .text _ | .owned _ | .int _ | .float _ | .bool _ =>
    rw [leafAt_of_leaf rfl]
    exact List.mem_singleton

theorem mem_placedFrom (i : Nat) (items : List Tree) (address : List Nat) (leaf : Tree) :
    (address, leaf) ∈ placedFrom i items ↔ ∃ j inner item,
      address = (i + j) :: inner ∧ items[j]? = some item ∧ item.LeafAt inner leaf := by
  match items with
  | [] => simp [placedFrom]
  | first :: items =>
    have shift (j : Nat) : i + 1 + j = i + (j + 1) := by omega
    rw [placedFrom, List.mem_append, mem_placedFrom (i + 1) items]
    simp only [shift]
    constructor
    · rintro (here | ⟨j, inner, item, rfl, picked, below⟩)
      · obtain ⟨⟨inner, leaf⟩, inside, same⟩ := List.mem_map.mp here
        cases same
        exact ⟨0, inner, first, rfl, rfl, (mem_placed first inner leaf).mp inside⟩
      · exact ⟨j + 1, inner, item, rfl, picked, below⟩
    · rintro ⟨j, inner, item, rfl, picked, below⟩
      cases j with
      | zero =>
        obtain rfl : first = item := Option.some.inj picked
        exact .inl (List.mem_map.mpr ⟨_, (mem_placed first inner leaf).mpr below, rfl⟩)
      | succ j => exact .inr ⟨j, inner, item, rfl, picked, below⟩

end

mutual

theorem placed_sorted (tree : Tree) : tree.placed.Pairwise (·.1 < ·.1) := by
  match tree with
  | .list items => exact placedFrom_sorted 0 items
  | .text _ | .owned _ | .int _ | .float _ | .bool _ => exact List.pairwise_singleton _ _

theorem placedFrom_sorted (i : Nat) (items : List Tree) :
    (placedFrom i items).Pairwise (·.1 < ·.1) := by
  match items with
  | [] => exact .nil
  | first :: items =>
    rw [placedFrom, List.pairwise_append]
    refine ⟨?_, placedFrom_sorted (i + 1) items, ?_⟩
    · rw [List.pairwise_map]
      exact (placed_sorted first).imp List.cons_lt_cons_self.mpr
    · rintro place here ⟨address, leaf⟩ later
      obtain ⟨inner, -, rfl⟩ := List.mem_map.mp here
      obtain ⟨j, _, _, rfl, -⟩ := (mem_placedFrom (i + 1) items address leaf).mp later
      exact List.Lex.rel (by omega)

end

theorem isList_of_mem_leaves {tree leaf : Tree} (member : leaf ∈ tree.leaves) :
    leaf.isList = false := by
  rw [← placed_leaves, List.mem_map] at member
  obtain ⟨⟨address, leaf⟩, place, rfl⟩ := member
  exact ((mem_placed tree address leaf).mp place).2

theorem leavesOf_flat {items : List Tree} (flat : ∀ item ∈ items, item.isList = false) :
    leavesOf items = items := by
  induction items with
  | nil => rfl
  | cons item items ih =>
    obtain ⟨solid, later⟩ := List.forall_mem_cons.mp flat
    have alone : item.leaves = [item] := by
      cases item with
      | list => cases solid
      | _ => rfl
    rw [leavesOf, ih later, alone, List.singleton_append]

theorem leaves_flatten (tree : Tree) : tree.flatten.leaves = tree.leaves := by
  rw [flatten_eq_leaves, leaves, leavesOf_flat fun _ => isList_of_mem_leaves]

theorem leaves_append (xs ys : List Tree) :
    (list (xs ++ ys)).leaves = (list xs).leaves ++ (list ys).leaves := by
  simp only [leaves, leavesOf_eq_flatMap, List.flatMap_append]

/-- A flattened tree lists all leaves in the order of their addresses: of two leaves the one that
turns off further left comes first. Flattening again changes nothing, the text stays that of the
leaves, and items in a row are flattened and spelled one after the other. -/
theorem flatten_keeps_leaves (tree : Tree) (xs ys : List Tree) :
    (∃ places : List (List Nat × Tree), places.Pairwise (·.1 < ·.1) ∧
      (∀ address leaf, (address, leaf) ∈ places ↔ tree.LeafAt address leaf) ∧
      tree.flatten = list (places.map Prod.snd) ∧
      tree.flattenText = places.flatMap (spelled ·.2)) ∧
    tree.flatten.flatten = tree.flatten ∧
    tree.flatten.flattenText = tree.flattenText ∧
    (∃ as bs, (list xs).flatten = list as ∧ (list ys).flatten = list bs ∧
      (list (xs ++ ys)).flatten = list (as ++ bs)) ∧
    (list (xs ++ ys)).flattenText = (list xs).flattenText ++ (list ys).flattenText := by
  refine ⟨⟨tree.placed, placed_sorted tree, mem_placed tree, ?_, ?_⟩, ?_, ?_, ?_, ?_⟩
  · rw [placed_leaves, flatten_eq_leaves]
  · rw [flattenText_eq_spelled, ← placed_leaves, List.flatMap_map]
  · rw [flatten_eq_leaves tree.flatten, leaves_flatten, flatten_eq_leaves]
  · rw [flattenText_eq_spelled, leaves_flatten, flattenText_eq_spelled]
  · refine ⟨(list xs).leaves, (list ys).leaves, flatten_eq_leaves _, flatten_eq_leaves _, ?_⟩
    rw [flatten_eq_leaves, leaves_append]
  · simp only [flattenText_eq_spelled, leaves_append, List.flatMap_append]

end Peg.Tree
