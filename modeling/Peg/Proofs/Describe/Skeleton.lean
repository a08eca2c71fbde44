import Peg.Grammar.Describe
import Peg.Proofs.Text.Delimited

/-!
What a printed grammar shows: a tree of kinds of nodes, with the texts beside them. The functions
inside nodes and the grammars that rules stand for are not shown.
-/
namespace Peg

open Text

/-- A parser of its own making, of which only the name is shown. -/
inductive Custom where
  | leaf (parser : Leaf)
  | wrapped (shown : Text) (inner : Grammar)

def Custom.shown : Custom → Text
  | leaf parser => parser.shown
  | wrapped shown _ => shown

inductive Kind where
  | literal (token : Text)
  | letter
  | digit
  | satisfy
  | oneOf (set : Text)
  | noneOf (set : Text)
  | whitespace
  | endOfInput
  | sequence
  | choice
  | many
  | many1
  | sepBy
  | capture
  | action
  | optional
  | label (name : Text)
  | rule
  | custom (parser : Custom)

inductive Skeleton where
  | node (kind : Kind) (children : List Skeleton)

namespace Kind

def ofClass : CharClass → Kind
  | .letter => letter
  | .digit => digit
  | .satisfy _ => satisfy
  | .oneOf set => oneOf set
  | .noneOf set => noneOf set

def word : Kind → Text
  | literal _ => "string".toList
  | letter => "letter".toList
  | digit => "digit".toList
  | satisfy => "satisfy".toList
  | oneOf _ => "one_of".toList
  | noneOf _ => "none_of".toList
  | whitespace => "ws".toList
  | endOfInput => "end_of_input".toList
  | sequence => "and".toList
  | choice => "or".toList
  | many => "many".toList
  | many1 => "many1".toList
  | sepBy => "sep_by".toList
  | capture => "make_str".toList
  | action => "ret".toList
  | optional => "optional".toList
  | label _ => "label".toList
  | rule => "lazy".toList
  | custom parser => parser.shown

def argument? : Kind → Option Text
  | literal text | oneOf text | noneOf text => some (quoted text)
  | label name => some name
  | _ => none

def tail (kind : Kind) : Text := (kind.argument?.map fun text => '(' :: text ++ [')']).getD []

def head (kind : Kind) : Text := kind.word ++ kind.tail

end Kind

namespace Grammar

mutual

def skeleton : Grammar → Skeleton
  | literal token => .node (.literal token) []
  | char accepted => .node (.ofClass accepted) []
  | whitespace => .node .whitespace []
  | endOfInput => .node .endOfInput []
  | sequence first others => .node .sequence (first.skeleton :: skeletons others)
  | choice first others => .node .choice (first.skeleton :: skeletons others)
  | many inner => .node .many [inner.skeleton]
  | many1 inner => .node .many1 [inner.skeleton]
  | sepBy value separator => .node .sepBy [value.skeleton, separator.skeleton]
  | capture inner => .node .capture [inner.skeleton]
  | action inner _ => .node .action [inner.skeleton]
  | optional inner => .node .optional [inner.skeleton]
  | label name inner => .node (.label name) [inner.skeleton]
  | rule _ => .node .rule []
  | leaf parser => .node (.custom (.leaf parser)) []
  | wrapped shown inner => .node (.custom (.wrapped shown inner)) []

def skeletons : List Grammar → List Skeleton
  | [] => []
  | g :: gs => g.skeleton :: skeletons gs

end

end Grammar

structure Entry where
  depth : Nat
  kind : Kind

namespace Skeleton

mutual

/-- The nodes of a tree, each in front of its children. -/
def outline (depth : Nat) : Skeleton → List Entry
  | node kind children => ⟨depth, kind⟩ :: outlineAll (depth + 1) children

def outlineAll (depth : Nat) : List Skeleton → List Entry
  | [] => []
  | tree :: trees => outline depth tree ++ outlineAll depth trees

end

def kinds (tree : Skeleton) : List Kind := (tree.outline 0).map Entry.kind

mutual

theorem le_depth_of_mem_outline {depth : Nat} {tree : Skeleton} {entry : Entry}
    (member : entry ∈ outline depth tree) : depth ≤ entry.depth := by
  match tree with
  | node kind children =>
    rcases List.mem_cons.mp member with rfl | below
    · exact le_rfl
    · exact (Nat.le_succ depth).trans (le_depth_of_mem_outlineAll below)

theorem le_depth_of_mem_outlineAll {depth : Nat} {trees : List Skeleton} {entry : Entry}
    (member : entry ∈ outlineAll depth trees) : depth ≤ entry.depth := by
  match trees with
  | [] => cases member
  | tree :: trees =>
    exact (List.mem_append.mp member).elim le_depth_of_mem_outline le_depth_of_mem_outlineAll

end

/-- Entries that do not start inside of a node at the depth. -/
def NoDeeper (depth : Nat) (entries : List Entry) : Prop :=
  ∀ entry ∈ entries.head?, entry.depth ≤ depth

theorem noDeeper_outlineAll {depth : Nat} {entries : List Entry} (trees : List Skeleton)
    (ends : NoDeeper depth entries) : NoDeeper depth (outlineAll depth trees ++ entries) := by
  cases trees with
  | nil => exact ends
  | cons tree trees =>
    obtain ⟨kind, children⟩ := tree
    intro entry front
    obtain rfl : ⟨depth, kind⟩ = entry := Option.some.inj front
    exact le_rfl

theorem not_noDeeper_outlineAll {depth : Nat} {entries : List Entry} (tree : Skeleton)
    (trees : List Skeleton) :
    ¬ NoDeeper depth (outlineAll (depth + 1) (tree :: trees) ++ entries) := by
  obtain ⟨kind, children⟩ := tree
  intro ends
  exact absurd (ends ⟨depth + 1, kind⟩ rfl) (Nat.not_succ_le_self depth)

mutual

theorem outline_unique (depth : Nat) (a b : Skeleton) {x y : List Entry} (endsX : NoDeeper depth x)
    (endsY : NoDeeper depth y) (same : a.outline depth ++ x = b.outline depth ++ y) :
    a = b ∧ x = y := by
  match a, b with
  | node kind children, node kind' children' =>
    obtain ⟨first, below⟩ := List.cons.inj same
    obtain ⟨rfl, rest⟩ := outlineAll_unique depth children children' endsX endsY below
    cases first
    exact ⟨rfl, rest⟩

theorem outlineAll_unique (depth : Nat) (as bs : List Skeleton) {x y : List Entry}
    (endsX : NoDeeper depth x) (endsY : NoDeeper depth y)
    (same : outlineAll (depth + 1) as ++ x = outlineAll (depth + 1) bs ++ y) : as = bs ∧ x = y := by
  -- What follows the children is no deeper than their parent, so it is not taken for a sibling.
  match as, bs with
  | [], [] => exact ⟨rfl, same⟩
  | [], b :: bs =>
    rw [outlineAll, List.nil_append] at same
    exact absurd (same ▸ endsX) (not_noDeeper_outlineAll b bs)
  | a :: as, [] =>
    rw [outlineAll, List.nil_append] at same
    exact absurd (same ▸ endsY) (not_noDeeper_outlineAll a as)
  | a :: as, b :: bs =>
    have higher : ∀ {entries}, NoDeeper depth entries → NoDeeper (depth + 1) entries :=
      fun ends entry front => (ends entry front).trans (Nat.le_succ depth)
    rw [outlineAll, outlineAll, List.append_assoc, List.append_assoc] at same
    obtain ⟨rfl, later⟩ := outline_unique (depth + 1) a b (noDeeper_outlineAll as (higher endsX))
      (noDeeper_outlineAll bs (higher endsY)) same
    obtain ⟨rfl, rest⟩ := outlineAll_unique depth as bs endsX endsY later
    exact ⟨rfl, rest⟩

end

end Skeleton

end Peg
