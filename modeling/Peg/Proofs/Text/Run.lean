import Mathlib.Data.List.TakeWhile
import Mathlib.Data.Nat.Find
import Peg.Text.Basic

/-!
Fronts of texts. Of the fronts with a property one is the longest; when the property is that all
characters pass a test, it is a run of characters, and the text shows where it stops.
-/
namespace Peg

variable {test : Char → Bool}

theorem forall_head_append {holds : Char → Prop} {front rest : Text} (inside : ∀ c ∈ front, holds c)
    (behind : ∀ c ∈ rest.head?, holds c) : ∀ c ∈ (front ++ rest).head?, holds c := by
  intro c first
  cases front with
  | nil => exact behind c first
  | cons d front =>
    cases first
    exact inside c List.mem_cons_self

theorem exists_longest_front (holds : Text → Prop) {known input : Text} (here : holds known)
    (front : known <+: input) : ∃ text rest, text ++ rest = input ∧ holds text ∧
      ∀ other, holds other → other <+: input → other.length ≤ text.length := by
  classical
  let sized (n : Nat) : Prop := ∃ text, holds text ∧ text <+: input ∧ text.length = n
  have some : sized known.length := ⟨known, here, front, rfl⟩
  obtain ⟨text, longest, ⟨rest, split⟩, size⟩ := Nat.findGreatest_spec front.length_le some
  refine ⟨text, rest, split, longest, fun other also inside => ?_⟩
  rw [size]
  exact Nat.le_findGreatest inside.length_le ⟨other, also, inside, rfl⟩

theorem exists_run (test : Char → Bool) (input : Text) : ∃ run rest, run ++ rest = input ∧
    (∀ c ∈ run, test c = true) ∧ ∀ c ∈ rest.head?, test c = false := by
  refine ⟨input.takeWhile test, input.dropWhile test, List.takeWhile_append_dropWhile,
    fun c member => List.mem_takeWhile_imp member, ?_⟩
  intro c first
  have stopped := List.head?_dropWhile_not test input
  rwa [Option.mem_def.mp first] at stopped

theorem takeWhile_run {run : Text} (all : ∀ c ∈ run, test c = true) (rest : Text)
    (stops : ∀ c ∈ rest.head?, test c = false) :
    (run ++ rest).takeWhile test = run ∧ (run ++ rest).dropWhile test = rest := by
  rw [List.takeWhile_append_of_pos all, List.dropWhile_append_of_pos all]
  cases rest with
  | nil => exact ⟨List.append_nil _, rfl⟩
  | cons c rest =>
    have other := stops c rfl
    simp [other]

/-- A text has one longest run, so where it stops is seen from the text. -/
theorem run_unique {run run' rest rest' : Text} (all : ∀ c ∈ run, test c = true)
    (all' : ∀ c ∈ run', test c = true) (stops : ∀ c ∈ rest.head?, test c = false)
    (stops' : ∀ c ∈ rest'.head?, test c = false) (same : run ++ rest = run' ++ rest') :
    run = run' ∧ rest = rest' := by
  obtain ⟨taken, left⟩ := takeWhile_run all rest stops
  obtain ⟨taken', left'⟩ := takeWhile_run all' rest' stops'
  rw [same] at taken left
  exact ⟨taken.symm.trans taken', left.symm.trans left'⟩

theorem mark_unique {mark : Char} {front front' rest rest' : Text} (clear : mark ∉ front)
    (clear' : mark ∉ front') (same : front ++ mark :: rest = front' ++ mark :: rest') :
    front = front' ∧ rest = rest' := by
  have inside : ∀ {text : Text}, mark ∉ text → ∀ c ∈ text, (c != mark) = true :=
    fun clear c member => bne_iff_ne.mpr fun here => clear (here ▸ member)
  have stops : ∀ rest : Text, ∀ c ∈ (mark :: rest).head?, (c != mark) = false := by simp
  obtain ⟨fronts, rests⟩ := run_unique (inside clear) (inside clear') (stops _) (stops _) same
  exact ⟨fronts, (List.cons.inj rests).2⟩

end Peg
