import Peg.Proofs.Describe.Layout
import Peg.Proofs.Text.Replace

/-!
A printed grammar as its lines with newlines between them, behind any indent. An indent with markers
in it is cut at them into pieces; below the root each of them is a trunk.
-/
namespace Peg

namespace Text

variable {separator old new : Text}

theorem join_cons (c : Char) (first : Text) (others : List Text) :
    join separator ((c :: first) :: others) = c :: join separator (first :: others) := by
  cases others <;> rfl

theorem join_nil_cons (first : Text) (others : List Text) :
    join separator ([] :: first :: others) = separator ++ join separator (first :: others) := rfl

theorem prefix_join (first : Text) (others : List Text) :
    first <+: join separator (first :: others) := by
  cases others with
  | nil => exact List.prefix_rfl
  | cons next others =>
    refine ⟨separator ++ join separator (next :: others), ?_⟩
    rw [join, List.append_assoc]

theorem flatMap_eq_join {texts : List Text} (nonempty : texts ≠ []) :
    texts.flatMap (· ++ separator) = join separator texts ++ separator := by
  induction texts with
  | nil => exact absurd rfl nonempty
  | cons text texts ih =>
    cases texts with
    | nil => exact List.append_nil _
    | cons next texts =>
      rw [List.flatMap_cons, ih (List.cons_ne_nil _ _), join, List.append_assoc (text ++ separator)]

/-- A text is cut into pieces at the places of the old text, and joined with the new one. -/
theorem exists_pieces (nonempty : old ≠ []) (new text : Text) :
    ∃ first others, (∀ piece ∈ first :: others, ¬ old <:+: piece) ∧
      join old (first :: others) = text ∧ replace old new text = join new (first :: others) := by
  induction size : text.length using Nat.strong_induction_on generalizing text with
  | _ n shorter =>
    subst size
    by_cases here : old <+: text
    · obtain ⟨rest, rfl⟩ := here
      have less : rest.length < (old ++ rest).length := by
        have some := List.length_pos_iff.mpr nonempty
        rw [List.length_append]
        omega
      obtain ⟨first, others, clear, joined, replaced⟩ := shorter _ less rest rfl
      refine ⟨[], first :: others, List.forall_mem_cons.mpr ⟨?_, clear⟩, ?_, ?_⟩
      · exact fun inside => nonempty (List.infix_nil.mp inside)
      · rw [join_nil_cons, joined]
      · rw [replace_append nonempty, replaced, join_nil_cons]
    · cases text with
      | nil =>
        refine ⟨[], [], List.forall_mem_singleton.mpr fun inside => ?_, rfl, rfl⟩
        exact nonempty (List.infix_nil.mp inside)
      | cons c text =>
        obtain ⟨first, others, clear, joined, replaced⟩ :=
          shorter _ (Nat.lt_succ_self _) text rfl
        obtain ⟨free, later⟩ := List.forall_mem_cons.mp clear
        refine ⟨c :: first, others, List.forall_mem_cons.mpr ⟨?_, later⟩, ?_, ?_⟩
        · intro inside
          rcases List.infix_cons_iff.mp inside with front | behind
          · have longer : c :: first <+: c :: join old (first :: others) :=
              (List.prefix_cons_inj c).mpr (prefix_join first others)
            rw [joined] at longer
            exact here (front.trans longer)
          · exact free behind
        · rw [join_cons, joined]
        · rw [replace_cons here, replaced, join_cons]

end Text

namespace Grammar

open Text (join)

theorem lines_eq_join (indent : Text) {entries : List Entry} (nonempty : entries ≠ []) :
    lines indent entries = join ['\n'] (entries.map (line indent)) ++ ['\n'] := by
  rw [← Text.flatMap_eq_join (mt List.map_eq_nil_iff.mp nonempty), List.flatMap_map]
  rfl

/-- A grammar is printed as the lines of its nodes in order with newlines between them. The root
stands behind the indent, and a node further in behind the indent with trunks for its markers, one
trunk for each level between the root and the node, and a marker. -/
theorem describe_layout (g : Grammar) (indent : Text) :
    g.describe indent = join ['\n'] ((g.skeleton.outline 0).map fun entry =>
      margin indent entry.depth ++ entry.kind.head) ∧
    margin indent 0 = indent ∧
    ∃ pieces, (∀ piece ∈ pieces, ¬ branch <:+: piece) ∧ join branch pieces = indent ∧
      ∀ depth, margin indent (depth + 1) = join trunk pieces ++ trunks depth ++ branch := by
  have printed := Skeleton.describe_lines indent 0 g.skeleton
  have nonempty : g.skeleton.outline 0 ≠ [] := by
    cases g.skeleton
    exact List.cons_ne_nil _ _
  rw [lines_eq_join indent nonempty, margin, ← describe_skeleton] at printed
  obtain ⟨first, others, clear, joined, replaced⟩ :=
    Text.exists_pieces (by decide : branch ≠ []) trunk indent
  refine ⟨List.append_cancel_right printed, rfl, first :: others, clear, joined, fun depth => ?_⟩
  rw [margin, replaced]

end Grammar
end Peg
