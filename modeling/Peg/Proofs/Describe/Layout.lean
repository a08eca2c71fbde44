import Peg.Proofs.Describe.Skeleton

/-!
The layout of a printed grammar: a line for every node in order, behind a margin that shows how
deep the node is.
-/
namespace Peg

open Text

namespace Skeleton

mutual

def describe : Skeleton → (indent : Text) → Text
  | node kind children, indent =>
    indent ++ kind.head ++ describeAll children (Grammar.deeper indent)

def describeAll : List Skeleton → (indent : Text) → Text
  | [], _ => []
  | tree :: trees, indent => '\n' :: tree.describe indent ++ describeAll trees indent

end

theorem describe_word {kind : Kind} (plain : kind.argument? = none) (children : List Skeleton)
    (indent : Text) : (node kind children).describe indent =
      indent ++ kind.word ++ describeAll children (Grammar.deeper indent) := by
  rw [describe, Kind.head, Kind.tail, plain, Option.map_none, Option.getD_none, List.append_nil]

theorem describe_argument {kind : Kind} {text : Text} (shown : kind.argument? = some text)
    (children : List Skeleton) (indent : Text) : (node kind children).describe indent =
      indent ++ (kind.word ++ ['(']) ++ text ++ [')'] ++
        describeAll children (Grammar.deeper indent) := by
  rw [describe, Kind.head, Kind.tail, shown, Option.map_some, Option.getD_some]
  simp only [List.append_assoc, List.cons_append, List.nil_append]

theorem describeAll_singleton (tree : Skeleton) (indent : Text) :
    describeAll [tree] indent = '\n' :: tree.describe indent := List.append_nil _

end Skeleton

namespace Grammar

open Skeleton (describe_word describe_argument describeAll_singleton)

theorem head_ofClass (accepted : CharClass) : (Kind.ofClass accepted).head = accepted.describe := by
  cases accepted with
  | letter | digit | satisfy => exact List.append_nil _
  | oneOf | noneOf => rfl

mutual

theorem describe_skeleton (g : Grammar) (indent : Text) :
    g.describe indent = g.skeleton.describe indent := by
  match g with
  | char accepted =>
    rw [describe, ← head_ofClass]
    exact (List.append_nil _).symm
  | literal _ =>
    rw [skeleton, describe_argument]
    exacts [(List.append_nil _).symm, rfl]
  | whitespace | endOfInput | rule _ | leaf _ | wrapped _ _ =>
    rw [skeleton, describe_word]
    exacts [(List.append_nil _).symm, rfl]
  | sequence first others | choice first others =>
    rw [describe, describe_skeleton first, describeAll_skeleton others, List.append_assoc, skeleton,
      describe_word]
    exacts [rfl, rfl]
  | many inner | many1 inner | capture inner | action inner _ | optional inner =>
    rw [describe, describe_skeleton inner, ← describeAll_singleton, skeleton, describe_word]
    exacts [rfl, rfl]
  | label _ inner =>
    rw [describe, describe_skeleton inner, ← describeAll_singleton, skeleton, describe_argument]
    exacts [rfl, rfl]
  | sepBy value separator =>
    rw [describe, describe_skeleton value, describe_skeleton separator,
      ← describeAll_singleton separator.skeleton, List.append_assoc, skeleton, describe_word]
    exacts [rfl, rfl]

theorem describeAll_skeleton (gs : List Grammar) (indent : Text) :
    describeAll gs indent = Skeleton.describeAll (skeletons gs) indent := by
  match gs with
  | [] => rfl
  | g :: gs =>
    rw [describeAll, describe_skeleton g, describeAll_skeleton gs]
    rfl

end

def trunks (depth : Nat) : Text := (List.replicate depth trunk).flatten

theorem trunks_succ (depth : Nat) : trunks (depth + 1) = trunks depth ++ trunk := by
  rw [trunks, List.replicate_succ', List.flatten_append, List.flatten_singleton, trunks]

/-- What stands in front of the nodes at a depth, when the root stands behind `indent`. -/
def margin (indent : Text) : (depth : Nat) → Text
  | 0 => indent
  | depth + 1 => replace branch trunk indent ++ trunks depth ++ branch

theorem branch_eq : branch = ['└', '─', '─'] := by decide

theorem trunk_eq : trunk = ['|', ' ', ' '] := by decide

theorem trunks_cons (depth : Nat) : trunks (depth + 1) = trunk ++ trunks depth := by
  rw [trunks, List.replicate_succ, List.flatten_cons, trunks]

theorem trunks_unique {m n : Nat} {x y : Text}
    (same : trunks m ++ (branch ++ x) = trunks n ++ (branch ++ y)) : m = n ∧ x = y := by
  have apart : ∀ depth x y, branch ++ x ≠ trunks (depth + 1) ++ y := by
    intro depth x y same
    rw [branch_eq, trunks_cons, trunk_eq] at same
    exact absurd (List.cons.inj same).1 (by decide)
  induction m generalizing n with
  | zero =>
    cases n with
    | zero => exact ⟨rfl, List.append_cancel_left same⟩
    | succ n => exact absurd same (apart n _ _)
  | succ m ih =>
    cases n with
    | zero => exact absurd same.symm (apart m _ _)
    | succ n =>
      rw [trunks_cons, trunks_cons, List.append_assoc, List.append_assoc] at same
      obtain ⟨rfl, rest⟩ := ih (List.append_cancel_left same)
      exact ⟨rfl, rest⟩

theorem after?_branch_eq_some_iff {c : Char} {text rest : Text} :
    after? branch (c :: text) = some rest ↔ c = '└' ∧ text = '─' :: '─' :: rest := by
  rw [after?_eq_some_iff, branch_eq, List.cons_append, List.cons.injEq]
  exact and_congr eq_comm eq_comm

theorem replaceFrom_dash {text rest : Text}
    (front : replaceFrom branch trunk 0 text ++ branch = '─' :: rest) :
    ∃ tail, text = '─' :: tail ∧ replaceFrom branch trunk 0 tail ++ branch = rest := by
  cases text with
  | nil => exact absurd (List.cons.inj front).1 (by decide)
  | cons c text =>
    rw [replaceFrom] at front
    split at front
    · exact absurd (List.cons.inj front).1 (by decide)
    · obtain ⟨rfl, behind⟩ := List.cons.inj front
      exact ⟨text, rfl, behind⟩

theorem after?_replaced {c : Char} {text : Text} (other : after? branch (c :: text) = none) :
    after? branch (c :: (replaceFrom branch trunk 0 text ++ branch)) = none := by
  by_contra found
  obtain ⟨rest, found⟩ := Option.ne_none_iff_exists'.mp found
  obtain ⟨rfl, front⟩ := after?_branch_eq_some_iff.mp found
  obtain ⟨tail, rfl, behind⟩ := replaceFrom_dash front
  obtain ⟨tail', rfl, -⟩ := replaceFrom_dash behind
  rw [after?_branch_eq_some_iff.mpr ⟨rfl, rfl⟩] at other
  cases other

theorem replace_trunk (text : Text) :
    replace branch trunk (trunk ++ text) = trunk ++ replace branch trunk text := by
  rw [trunk_eq]
  rfl

/-- A text that was replaced in before stays as it is, up to a marker behind it. -/
theorem replaceFrom_again (skip : Nat) (text : Text) :
    replace branch trunk (replaceFrom branch trunk skip text ++ branch) =
      replaceFrom branch trunk skip text ++ trunk := by
  fun_induction replaceFrom branch trunk skip text with
  | case1 => rfl
  | case2 skip c text ih => exact ih
  | case3 c text rest marker ih => rw [List.append_assoc, replace_trunk, ih, List.append_assoc]
  | case4 c text other ih =>
    rw [List.cons_append, replace, replaceFrom, after?_replaced other]
    exact congrArg (c :: ·) ih

theorem replace_again (text : Text) :
    replace branch trunk (replace branch trunk text ++ branch) = replace branch trunk text ++ trunk :=
  replaceFrom_again 0 text

theorem margin_replaced (indent : Text) (depth : Nat) :
    ∃ text, replace branch trunk indent ++ trunks depth = replace branch trunk text := by
  induction depth with
  | zero => exact ⟨indent, List.append_nil _⟩
  | succ depth ih =>
    obtain ⟨text, same⟩ := ih
    refine ⟨replace branch trunk text ++ branch, ?_⟩
    rw [replace_again, ← same, trunks_succ, List.append_assoc]

theorem deeper_margin (indent : Text) (depth : Nat) :
    deeper (margin indent depth) = margin indent (depth + 1) := by
  cases depth with
  | zero =>
    rw [deeper, margin, margin, trunks, List.replicate_zero, List.flatten_nil, List.append_nil]
  | succ depth =>
    obtain ⟨text, same⟩ := margin_replaced indent depth
    rw [deeper, margin, margin, same, replace_again, ← same, trunks_succ, List.append_assoc _ _ trunk]

theorem newline_not_mem_margin (depth : Nat) : '\n' ∉ margin [] depth := by
  have inside : '\n' ∉ trunk ∧ '\n' ∉ branch := by decide
  cases depth with
  | zero => exact List.not_mem_nil
  | succ depth =>
    rw [margin, trunks, List.mem_append, List.mem_append, List.mem_flatten]
    rintro ((replaced | ⟨piece, member, newline⟩) | marker)
    · cases replaced
    · exact inside.1 (List.eq_of_mem_replicate member ▸ newline)
    · exact inside.2 marker

def line (indent : Text) (entry : Entry) : Text := margin indent entry.depth ++ entry.kind.head

def lines (indent : Text) (entries : List Entry) : Text :=
  entries.flatMap fun entry => line indent entry ++ ['\n']

theorem lines_cons (indent : Text) (entry : Entry) (later : List Entry) :
    lines indent (entry :: later) = line indent entry ++ '\n' :: lines indent later := by
  simp only [lines, List.flatMap_cons, List.append_assoc, List.cons_append, List.nil_append]

theorem lines_append (indent : Text) (entries later : List Entry) :
    lines indent (entries ++ later) = lines indent entries ++ lines indent later :=
  List.flatMap_append

end Grammar

namespace Skeleton

open Grammar (margin line lines deeper_margin lines_cons lines_append)

mutual

theorem describe_lines (indent : Text) (depth : Nat) (tree : Skeleton) :
    tree.describe (margin indent depth) ++ ['\n'] = lines indent (tree.outline depth) := by
  match tree with
  | node kind children =>
    rw [describe, deeper_margin, List.append_assoc, describeAll_lines indent (depth + 1) children,
      outline, lines_cons, line]

theorem describeAll_lines (indent : Text) (depth : Nat) (trees : List Skeleton) :
    describeAll trees (margin indent depth) ++ ['\n'] =
      '\n' :: lines indent (outlineAll depth trees) := by
  match trees with
  | [] => rfl
  | tree :: trees =>
    rw [describeAll, List.append_assoc, describeAll_lines indent depth trees, outlineAll,
      lines_append, ← describe_lines indent depth tree]
    simp only [List.cons_append, List.append_assoc, List.nil_append]

end

end Skeleton

end Peg
