import Mathlib.Data.Char
import Mathlib.Data.List.Induction
import Mathlib.Data.List.Lex
import Mathlib.Data.List.Sort
import Peg.Language.Json

/-!
The members of an object: one for each key, in the order of the keys. Pairs that
are put in one after another leave every key with the value that it has last.
-/
namespace Peg.Language.Json

/-- Members in the order of their keys, each with the value that its key has last. -/
structure Latest (pairs members : List (Text × Json)) : Prop where
  ordered : members.Pairwise (·.1 < ·.1)
  last : ∀ key value, (key, value) ∈ members ↔ pairs.reverse.lookup key = some value

variable {key k : Text} {value v : Json} {pairs members others : List (Text × Json)}

theorem insertMember_first (below : ∀ member ∈ members, k < member.1) (above : k < key) :
    ∀ member ∈ insertMember key value members, k < member.1 := by
  induction members with
  | nil => simpa [insertMember] using above
  | cons head members ih =>
    obtain ⟨first, later⟩ := List.forall_mem_cons.mp below
    simp only [insertMember]
    split
    · exact List.forall_mem_cons.mpr ⟨above, later⟩
    · split
      · exact List.forall_mem_cons.mpr ⟨above, below⟩
      · exact List.forall_mem_cons.mpr ⟨first, ih later⟩

theorem insertMember_ordered (ordered : members.Pairwise (·.1 < ·.1)) :
    (insertMember key value members).Pairwise (·.1 < ·.1) := by
  induction ordered with
  | nil => exact List.pairwise_singleton _ _
  | @cons head members below ordered ih =>
    simp only [insertMember]
    split
    · next same =>
      subst same
      exact .cons below ordered
    · next differs =>
      split
      · next first =>
        refine .cons (List.forall_mem_cons.mpr ⟨first, fun member inside => ?_⟩) (.cons below ordered)
        exact first.trans (below member inside)
      · next notFirst =>
        have behind : head.1 < key := lt_of_le_of_ne (le_of_not_gt notFirst) (Ne.symm differs)
        exact .cons (insertMember_first below behind) ih

theorem mem_insertMember (ordered : members.Pairwise (·.1 < ·.1)) :
    (k, v) ∈ insertMember key value members ↔
      if k = key then v = value else (k, v) ∈ members := by
  induction ordered with
  | nil =>
    simp only [insertMember, List.mem_singleton, Prod.mk.injEq, List.not_mem_nil]
    split <;> simp_all
  | @cons head members below ordered ih =>
    have absent : ∀ {key}, key ≤ head.1 → ∀ {v}, (key, v) ∉ members :=
      fun under _ inside => absurd (below _ inside) under.not_gt
    simp only [insertMember]
    split
    · next same =>
      subst same
      by_cases here : k = head.1
      · simp [here, absent le_rfl]
      · simp [here, Prod.ext_iff]
    · next differs =>
      split
      · next first =>
        by_cases here : k = key
        · simp [here, differs, absent first.le, Prod.ext_iff]
        · simp [here]
      · by_cases here : k = key
        · subst here
          simp [differs, ih, Prod.ext_iff]
        · simp [here, ih]

theorem Latest.nil : Latest [] [] := ⟨.nil, by simp⟩

theorem Latest.insert (latest : Latest pairs members) (key : Text) (value : Json) :
    Latest (pairs ++ [(key, value)]) (insertMember key value members) := by
  refine ⟨insertMember_ordered latest.ordered, fun k v => ?_⟩
  rw [mem_insertMember latest.ordered, List.reverse_append, List.reverse_singleton,
    List.singleton_append, List.lookup_cons]
  by_cases same : k = key
  · simp [same, eq_comm]
  · simp [same, beq_eq_false_iff_ne.mpr same, latest.last]

theorem Latest.unique (latest : Latest pairs members) (other : Latest pairs others) :
    members = others := by
  have irrefl : Std.Irrefl fun a b : Text × Json => a.1 < b.1 := ⟨fun a => lt_irrefl a.1⟩
  have antisymm : Std.Antisymm fun a b : Text × Json => a.1 < b.1 :=
    ⟨fun a b first second => absurd second first.asymm⟩
  refine latest.ordered.eq_of_mem_iff other.ordered fun member => ?_
  rw [latest.last, other.last]

theorem exists_latest (pairs : List (Text × Json)) : ∃ members, Latest pairs members := by
  induction pairs using List.reverseRec with
  | nil => exact ⟨[], .nil⟩
  | append_singleton pairs pair ih =>
    obtain ⟨members, latest⟩ := ih
    exact ⟨_, latest.insert pair.1 pair.2⟩

end Peg.Language.Json
