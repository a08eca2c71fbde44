import Mathlib.Data.List.Nodup
import Peg.Proofs.Describe.Layout

/-!
Grammars told apart by their printed form. Printed alike are only grammars with one skeleton, when
labels stay on their lines and custom parsers have names of their own.
-/
namespace Peg

open Text

namespace Kind

def isCustom : Kind → Bool
  | custom _ => true
  | _ => false

def words : List Text :=
  ["string", "letter", "digit", "satisfy", "one_of", "none_of", "ws", "end_of_input", "and", "or",
    "many", "many1", "sep_by", "make_str", "ret", "optional", "label", "lazy"].map String.toList

theorem words_nodup : words.Nodup := by decide

theorem paren_not_mem_words : ∀ word ∈ words, '(' ∉ word := by decide

theorem words_ctorIdx {kind : Kind} (own : kind.isCustom = false) :
    words[kind.ctorIdx]? = some kind.word := by
  cases kind <;> first | rfl | cases own

theorem tail_inj {a b : Kind} (same : a.tail = b.tail) : a.argument? = b.argument? := by
  unfold tail at same
  cases one : a.argument? with
  | none =>
    cases other : b.argument? with
    | none => rfl
    | some text => rw [one, other] at same; cases same
  | some text =>
    cases other : b.argument? with
    | none => rw [one, other] at same; cases same
    | some text' =>
      rw [one, other] at same
      exact congrArg some (List.append_cancel_right (List.cons.inj same).2)

theorem head_split {a b : Kind} (own : a.isCustom = false) (own' : b.isCustom = false)
    (same : a.head = b.head) : a.ctorIdx = b.ctorIdx ∧ a.argument? = b.argument? := by
  have plain : ∀ {kind : Kind}, kind.isCustom = false → ∀ c ∈ kind.word, (c != '(') = true :=
    fun own c member => bne_iff_ne.mpr fun paren => paren_not_mem_words _
      (List.mem_of_getElem? (words_ctorIdx own)) (paren ▸ member)
  have stops : ∀ kind : Kind, ∀ c ∈ kind.tail.head?, (c != '(') = false := by
    intro kind c front
    unfold tail at front
    cases shown : kind.argument? with
    | none => rw [shown] at front; cases front
    | some text => rw [shown] at front; rw [← Option.some.inj front]; rfl
  obtain ⟨word, behind⟩ := run_unique (plain own) (plain own') (stops a) (stops b) same
  have place := words_ctorIdx own
  obtain ⟨bound, -⟩ := List.getElem?_eq_some_iff.mp place
  rw [word, ← words_ctorIdx own', List.getElem?_inj bound words_nodup] at place
  exact ⟨place, tail_inj behind⟩

theorem eq_of_ctorIdx {a b : Kind} (own : a.isCustom = false) (index : a.ctorIdx = b.ctorIdx)
    (argument : a.argument? = b.argument?) : a = b := by
  match a, b with
  | literal token, literal token' => rw [quoted_injective (Option.some.inj argument)]
  | oneOf set, oneOf set' => rw [quoted_injective (Option.some.inj argument)]
  | noneOf set, noneOf set' => rw [quoted_injective (Option.some.inj argument)]
  | label name, label name' => rw [Option.some.inj argument]
  | letter, letter | digit, digit | satisfy, satisfy | whitespace, whitespace
  | endOfInput, endOfInput | sequence, sequence | choice, choice | many, many | many1, many1
  | sepBy, sepBy | capture, capture | action, action | optional, optional | rule, rule => rfl

end Kind

/-- Custom parsers of one line each, told apart from each other and from every other node by their
names, since nothing else of them is printed. -/
structure Catalogue (customs : List Custom) : Prop where
  oneLine : ∀ parser ∈ customs, '\n' ∉ parser.shown
  own : ∀ parser ∈ customs, ∀ kind : Kind, kind.isCustom = false → kind.head ≠ parser.shown
  apart : ∀ parser ∈ customs, ∀ other ∈ customs, parser.shown = other.shown → parser = other

def Kind.Legible (customs : List Custom) : Kind → Prop
  | label name => '\n' ∉ name
  | custom parser => parser ∈ customs
  | _ => True

def Grammar.Legible (customs : List Custom) (g : Grammar) : Prop :=
  ∀ kind ∈ g.skeleton.kinds, kind.Legible customs

variable {customs : List Custom}

namespace Kind

theorem custom_or_own (kind : Kind) : (∃ parser, kind = custom parser) ∨ kind.isCustom = false := by
  cases kind with
  | custom parser => exact .inl ⟨parser, rfl⟩
  | _ => exact .inr rfl

theorem head_custom (parser : Custom) : (custom parser).head = parser.shown := List.append_nil _

theorem head_inj (catalogue : Catalogue customs) {a b : Kind} (legible : a.Legible customs)
    (legible' : b.Legible customs) (same : a.head = b.head) : a = b := by
  rcases custom_or_own a with ⟨parser, rfl⟩ | own <;> rcases custom_or_own b with ⟨other, rfl⟩ | own'
  · rw [head_custom, head_custom] at same
    rw [catalogue.apart parser legible other legible' same]
  · exact absurd (same.symm.trans (head_custom parser)) (catalogue.own parser legible b own')
  · exact absurd (same.trans (head_custom other)) (catalogue.own other legible' a own)
  · obtain ⟨index, argument⟩ := head_split own own' same
    exact eq_of_ctorIdx own index argument

theorem newline_not_mem_word (catalogue : Catalogue customs) {kind : Kind}
    (legible : kind.Legible customs) : '\n' ∉ kind.word := by
  rcases custom_or_own kind with ⟨parser, rfl⟩ | own
  · exact catalogue.oneLine parser legible
  · have listed : ∀ word ∈ words, '\n' ∉ word := by decide
    exact listed _ (List.mem_of_getElem? (words_ctorIdx own))

theorem newline_not_mem_argument {kind : Kind} {text : Text} (legible : kind.Legible customs)
    (shown : kind.argument? = some text) : '\n' ∉ text := by
  cases kind with
  | literal | oneOf | noneOf =>
    rw [← Option.some.inj shown]
    exact newline_not_mem_quoted _
  | label name =>
    rw [← Option.some.inj shown]
    exact legible
  | _ => cases shown

theorem newline_not_mem_head (catalogue : Catalogue customs) {kind : Kind}
    (legible : kind.Legible customs) : '\n' ∉ kind.head := by
  intro member
  rcases List.mem_append.mp member with word | behind
  · exact newline_not_mem_word catalogue legible word
  · unfold tail at behind
    cases shown : kind.argument? with
    | none => rw [shown] at behind; cases behind
    | some text =>
      have inside := newline_not_mem_argument legible shown
      rw [shown] at behind
      simp [inside] at behind

end Kind

namespace Grammar

theorem newline_not_mem_line (catalogue : Catalogue customs) {entry : Entry}
    (legible : entry.kind.Legible customs) : '\n' ∉ line [] entry := fun member =>
  (List.mem_append.mp member).elim (newline_not_mem_margin entry.depth)
    (Kind.newline_not_mem_head catalogue legible)

theorem line_inj (catalogue : Catalogue customs) {a b : Entry} (legible : a.kind.Legible customs)
    (legible' : b.kind.Legible customs) (below : 0 < a.depth) (below' : 0 < b.depth)
    (same : line [] a = line [] b) : a = b := by
  obtain ⟨depth, kind⟩ := a
  obtain ⟨depth', kind'⟩ := b
  obtain ⟨m, rfl⟩ := Nat.exists_eq_add_one.mpr below
  obtain ⟨n, rfl⟩ := Nat.exists_eq_add_one.mpr below'
  simp only [line, margin, List.append_assoc] at same
  obtain ⟨rfl, heads⟩ := trunks_unique (List.append_cancel_left same)
  obtain rfl : kind = kind' := Kind.head_inj catalogue legible legible' heads
  rfl

end Grammar

namespace Skeleton

open Grammar (line lines lines_cons line_inj newline_not_mem_line)

theorem lines_inj (catalogue : Catalogue customs) {as bs : List Entry}
    (legible : ∀ entry ∈ as, entry.kind.Legible customs ∧ 0 < entry.depth)
    (legible' : ∀ entry ∈ bs, entry.kind.Legible customs ∧ 0 < entry.depth)
    (same : lines [] as = lines [] bs) : as = bs := by
  have each : ∀ a ∈ as, ∀ b ∈ bs, ∀ x y,
      (line [] a ++ ['\n']) ++ x = (line [] b ++ ['\n']) ++ y → a = b ∧ x = y := by
    intro a left b right x y same
    rw [List.append_assoc, List.append_assoc] at same
    obtain ⟨one, deep⟩ := legible a left
    obtain ⟨other, deep'⟩ := legible' b right
    obtain ⟨here, rest⟩ := mark_unique (newline_not_mem_line catalogue one)
      (newline_not_mem_line catalogue other) same
    exact ⟨line_inj catalogue one other deep deep' here, rest⟩
  have goesOn : ∀ entry x, (line [] entry ++ ['\n']) ++ x ≠ [] := by simp
  exact (flatMap_unique (· = []) each goesOn rfl rfl (congrArg (· ++ []) same)).1

theorem eq_of_describe_eq (catalogue : Catalogue customs) {a b : Skeleton}
    (legible : ∀ kind ∈ a.kinds, kind.Legible customs)
    (legible' : ∀ kind ∈ b.kinds, kind.Legible customs) (same : a.describe [] = b.describe []) :
    a = b := by
  obtain ⟨kind, children⟩ := a
  obtain ⟨kind', children'⟩ := b
  have below : ∀ {root children}, (∀ kind ∈ kinds (node root children), kind.Legible customs) →
      ∀ entry ∈ outlineAll 1 children, entry.kind.Legible customs ∧ 0 < entry.depth :=
    fun legible entry member =>
      ⟨legible _ (List.mem_cons_of_mem _ (List.mem_map_of_mem member)),
        le_depth_of_mem_outlineAll member⟩
  have printed : lines [] (outline 0 (node kind children)) =
      lines [] (outline 0 (node kind' children')) := by
    rw [← describe_lines, ← describe_lines]
    exact congrArg (· ++ ['\n']) same
  have here := legible kind List.mem_cons_self
  have here' := legible' kind' List.mem_cons_self
  rw [outline, outline, lines_cons, lines_cons] at printed
  obtain ⟨root, later⟩ := mark_unique (newline_not_mem_line catalogue here)
    (newline_not_mem_line catalogue here') printed
  obtain rfl : kind = kind' := Kind.head_inj catalogue here here' root
  have entries := lines_inj catalogue (below legible) (below legible') later
  have ends : NoDeeper 0 [] := by simp [NoDeeper]
  obtain ⟨rfl, -⟩ := outlineAll_unique 0 children children' ends ends (congrArg (· ++ []) entries)
  rfl

end Skeleton

namespace Custom

def known : List Custom :=
  [.leaf .twoChars, .leaf .twoBytes, .leaf .never, .leaf .nothing, .leaf .emptyText, .leaf .takeAll,
    .wrapped "Comma".toList (.token ","), .wrapped "Wrapper".toList (.token ",")]

theorem known_shown_nodup : (known.map shown).Nodup := by decide

/-- No word starts like a custom parser: functions are shown behind `fn`, and the names of types
start with capital letters. -/
theorem words_first_ne : ∀ word ∈ Kind.words, word ≠ [] ∧
    ∀ parser ∈ known, word.head? ≠ parser.shown.head? := by decide

theorem known_catalogue : Catalogue known where
  oneLine := by decide
  own parser member kind own same := by
    obtain ⟨nonempty, other⟩ := words_first_ne _ (List.mem_of_getElem? (Kind.words_ctorIdx own))
    refine other parser member ?_
    rw [← same, Kind.head, List.head?_append_of_ne_nil _ nonempty]
  apart _ left _ right same := List.inj_on_of_nodup_map known_shown_nodup left right same

end Custom

/-- Grammars are printed alike only when they have one skeleton. -/
theorem Grammar.describe_inj (catalogue : Catalogue customs) {a b : Grammar}
    (legible : a.Legible customs) (legible' : b.Legible customs) :
    a.describe [] = b.describe [] ↔ a.skeleton = b.skeleton := by
  rw [describe_skeleton, describe_skeleton]
  exact ⟨Skeleton.eq_of_describe_eq catalogue legible legible', congrArg (Skeleton.describe · [])⟩

namespace Grammar

def within : Grammar := sequence (sequence (label "x".toList (leaf .takeAll)) [comma]) []

def beside : Grammar := sequence (sequence (label "x".toList (leaf .takeAll)) []) [comma]

theorem describe_within_ne_beside :
    Catalogue Custom.known ∧ within.Legible Custom.known ∧ beside.Legible Custom.known ∧
      within.describe [] ≠ beside.describe [] := by
  have legible : ∀ {g : Grammar}, g.skeleton.kinds = [.sequence, .sequence, .label "x".toList,
      .custom (.leaf .takeAll), .custom (.wrapped "Comma".toList (token ","))] →
      g.Legible Custom.known := by
    intro g kinds
    rw [Legible, kinds]
    simp [Kind.Legible, Custom.known]
  have catalogue := Custom.known_catalogue
  have one : within.Legible Custom.known := legible rfl
  have other : beside.Legible Custom.known := legible rfl
  refine ⟨catalogue, one, other, (describe_inj catalogue one other).not.mpr ?_⟩
  simp [within, beside, skeleton, skeletons, comma]

end Grammar
end Peg
