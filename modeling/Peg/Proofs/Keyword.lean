import Peg.Language.Color
import Peg.Proofs.Derivation.Rows

/-!
Choices among keywords. The first keyword of the list that a text starts with is taken, so that a
keyword is hidden by another in front of it that it starts with. Where no keyword starts another
one the order of the list is of no account, as with the names of colours; where keywords stand in
front of those that start them, the longest one is taken. Of the list of colours and of the reading
of a name it is asked that the names, and no other words, are listed, and that each is read as its
colour.
-/
namespace Peg.Grammar

def keywords (tokens : List Text) : Except Error Grammar := choice? (tokens.map literal)

def PrefixFree (tokens : List Text) : Prop :=
  ∀ token ∈ tokens, ∀ other ∈ tokens, token <+: other → token = other

instance (tokens : List Text) : Decidable (PrefixFree tokens) :=
  inferInstanceAs (Decidable (∀ token ∈ tokens, ∀ other ∈ tokens, token <+: other → token = other))

/-- Every token is met before the others that start it. -/
def LongestFirst (tokens : List Text) : Prop :=
  ∀ token ∈ tokens, ∀ other ∈ tokens, other <+: token → other ≠ token →
    tokens.idxOf token < tokens.idxOf other

instance (tokens : List Text) : Decidable (LongestFirst tokens) :=
  inferInstanceAs (Decidable (∀ token ∈ tokens, ∀ other ∈ tokens, other <+: token → other ≠ token →
    tokens.idxOf token < tokens.idxOf other))

def firstToken? (tokens : List Text) (input : Text) : Option Text := tokens.find? (· <+: input)

def taken (input token : Text) : Match := ⟨token, input.drop token.length, some (.text token)⟩

variable {rules : Rules} {tokens other : List Text} {input token : Text}

theorem firstToken?_eq_none_iff :
    firstToken? tokens input = none ↔ ∀ token ∈ tokens, ¬ token <+: input := by
  simp [firstToken?]

theorem mem_of_firstToken? (first : firstToken? tokens input = some token) :
    token ∈ tokens ∧ token <+: input :=
  ⟨List.mem_of_find?_eq_some first, by simpa using List.find?_some first⟩

theorem firstToken?_cons_here (front : token <+: input) :
    firstToken? (token :: tokens) input = some token := by
  simp [firstToken?, front]

theorem firstToken?_cons_later (differs : ¬ token <+: input) :
    firstToken? (token :: tokens) input = firstToken? tokens input := by
  simp [firstToken?, differs]

/-- Of tokens that do not start each other, a text starts with one at most. -/
theorem PrefixFree.firstToken?_eq_some_iff (free : PrefixFree tokens) :
    firstToken? tokens input = some token ↔ token ∈ tokens ∧ token <+: input := by
  refine ⟨mem_of_firstToken?, fun ⟨member, front⟩ => ?_⟩
  cases first : firstToken? tokens input with
  | none => exact absurd front (firstToken?_eq_none_iff.mp first token member)
  | some found =>
    obtain ⟨listed, here⟩ := mem_of_firstToken? first
    rcases List.prefix_or_prefix_of_prefix here front with shorter | longer
    · rw [free found listed token member shorter]
    · rw [free token member found listed longer]

theorem PrefixFree.firstToken?_perm (free : PrefixFree tokens) (permuted : tokens.Perm other)
    (input : Text) : firstToken? other input = firstToken? tokens input := by
  have also : PrefixFree other := fun a left b right =>
    free a (permuted.mem_iff.mpr left) b (permuted.mem_iff.mpr right)
  refine Option.ext fun token => ?_
  rw [also.firstToken?_eq_some_iff, free.firstToken?_eq_some_iff, permuted.mem_iff]

theorem idxOf_firstToken?_le {found : Text} (first : firstToken? tokens input = some found)
    (member : token ∈ tokens) (front : token <+: input) :
    tokens.idxOf found ≤ tokens.idxOf token := by
  induction tokens with
  | nil => cases member
  | cons head tokens ih =>
    by_cases here : head <+: input
    · rw [firstToken?_cons_here here] at first
      cases first
      rw [List.idxOf_cons_self]
      exact Nat.zero_le _
    · rw [firstToken?_cons_later here] at first
      have differs {text : Text} (starts : text <+: input) : head ≠ text :=
        fun same => here (same ▸ starts)
      rw [List.idxOf_cons_ne _ (differs (mem_of_firstToken? first).2),
        List.idxOf_cons_ne _ (differs front)]
      exact Nat.succ_le_succ (ih first (List.mem_of_ne_of_mem (differs front).symm member))

theorem LongestFirst.length_le (sorted : LongestFirst tokens) {found : Text}
    (first : firstToken? tokens input = some found) (member : token ∈ tokens)
    (front : token <+: input) : token.length ≤ found.length := by
  obtain ⟨listed, here⟩ := mem_of_firstToken? first
  by_contra longer
  have starts : found <+: token :=
    List.prefix_of_prefix_length_le here front (Nat.le_of_not_le longer)
  have differs : found ≠ token := fun same => longer (same ▸ le_rfl)
  have earlier := sorted token member found listed starts differs
  exact absurd (idxOf_firstToken?_le first member front) (Nat.not_le_of_lt earlier)

theorem derives_tokens (rules : Rules) (nonempty : ∀ token ∈ tokens, token ≠ []) (input : Text) :
    DerivesChoice rules (tokens.map literal) input
      (.done ((firstToken? tokens input).map (taken input))) := by
  induction tokens with
  | nil => exact .nil input
  | cons token tokens ih =>
    obtain ⟨here, later⟩ := List.forall_mem_cons.mp nonempty
    by_cases front : token <+: input
    · rw [firstToken?_cons_here front]
      obtain ⟨rest, rfl⟩ := front
      rw [List.map_cons, Option.map_some, taken, List.drop_left]
      exact .here (.token token rest here)
    · rw [firstToken?_cons_later front]
      exact .later (.tokenFails token input front) (ih later)

/-- A choice among tokens, by what it makes of every text. -/
structure Alternates (rules : Rules) (tokens : List Text) (g : Grammar) : Prop where
  fails_iff : ∀ input, g.parse rules input = .done none ↔ ∀ token ∈ tokens, ¬ token <+: input
  first : ∀ input, g.parse rules input = .done ((firstToken? tokens input).map (taken input))
  permuted : PrefixFree tokens → ∀ other, tokens.Perm other →
    ∃ h, keywords other = .ok h ∧ ∀ input, h.parse rules input = g.parse rules input
  longest : LongestFirst tokens → ∀ input found, g.parse rules input = .done (some found) →
    found.parsed ∈ tokens ∧ found.parsed <+: input ∧
      ∀ token ∈ tokens, token <+: input → token.length ≤ found.parsed.length

theorem exists_keywords (rules : Rules) (filled : tokens ≠ []) (nonempty : ∀ token ∈ tokens, token ≠ []) :
    ∃ g, keywords tokens = .ok g ∧
      ∀ input, g.parse rules input = .done ((firstToken? tokens input).map (taken input)) := by
  obtain ⟨token, later, rfl⟩ := List.exists_cons_of_ne_nil filled
  exact ⟨_, rfl, fun input => parse_eq_of_derives (.choice (derives_tokens rules nonempty input))⟩

theorem exists_alternates (rules : Rules) (filled : tokens ≠ [])
    (nonempty : ∀ token ∈ tokens, token ≠ []) :
    ∃ g, keywords tokens = .ok g ∧ Alternates rules tokens g := by
  obtain ⟨g, built, ran⟩ := exists_keywords rules filled nonempty
  refine ⟨g, built, fun input => ?_, ran, fun free other permuted => ?_, fun sorted input found => ?_⟩
  · rw [ran, ← firstToken?_eq_none_iff]
    simp
  · have filled' : other ≠ [] := fun empty => filled (empty ▸ permuted).eq_nil
    obtain ⟨h, built', ran'⟩ := exists_keywords rules filled' fun token member =>
      nonempty token (permuted.mem_iff.mpr member)
    exact ⟨h, built', fun input => by rw [ran, ran', free.firstToken?_perm permuted]⟩
  · intro matched
    rw [ran] at matched
    obtain ⟨token, first, rfl⟩ := Option.map_eq_some_iff.mp (Outcome.done.inj matched)
    obtain ⟨member, front⟩ := mem_of_firstToken? first
    exact ⟨member, front, fun other listed here => sorted.length_le first listed here⟩

end Peg.Grammar

namespace Peg.Language.Color

open Grammar VariantNames FromText

variable {input token : Text}

theorem name_ne_nil (color : Color) : color.name ≠ [] := by cases color <;> decide

theorem eq_of_name_starts {color other : Color} (front : color.name <+: other.name) :
    color = other := by
  cases color <;> cases other <;> revert front <;> decide

section

variable [VariantNames Color]
variable (listed : ∀ word, word ∈ variants Color ↔ ∃ color : Color, color.name = word)
include listed

theorem variants_prefixFree : PrefixFree (variants Color) := by
  intro word member other also front
  obtain ⟨color, rfl⟩ := (listed word).mp member
  obtain ⟨color', rfl⟩ := (listed other).mp also
  rw [eq_of_name_starts front]

theorem exists_keyword : ∃ g, Color.keyword = .ok g ∧
    ∀ input, g.parse [] input = .done ((firstToken? (variants Color) input).map (taken input)) := by
  have filled : variants Color ≠ [] := List.ne_nil_of_mem ((listed _).mpr ⟨lime, rfl⟩)
  refine exists_keywords [] filled fun word member => ?_
  obtain ⟨color, rfl⟩ := (listed word).mp member
  exact name_ne_nil color

theorem firstToken?_variants_eq_some_iff :
    firstToken? (variants Color) input = some token ↔
      ∃ color : Color, color.name = token ∧ color.name <+: input := by
  rw [(variants_prefixFree listed).firstToken?_eq_some_iff, listed]
  constructor
  · rintro ⟨⟨color, rfl⟩, front⟩
    exact ⟨color, rfl, front⟩
  · rintro ⟨color, rfl, front⟩
    exact ⟨⟨color, rfl⟩, front⟩

variable [FromText Color]

theorem parse_eq (input : Text) : Color.parse input =
    (firstToken? (variants Color) input).bind fun token =>
      (fromText? token).map fun color => (color, input.drop token.length) := by
  obtain ⟨g, built, ran⟩ := exists_keyword listed
  cases first : firstToken? (variants Color) input with
  | none => simp [Color.parse, built, ran, first]
  | some token =>
    simp only [Color.parse, built, ran, first, Option.map_some, Option.bind_some, taken]
    exact Option.map_eq_bind.symm

variable (reads : ∀ color : Color, fromText? color.name = some color)
include reads

theorem parse_eq_some_iff {color : Color} {rest : Text} :
    Color.parse input = some (color, rest) ↔ color.name ++ rest = input := by
  rw [parse_eq listed]
  constructor
  · intro read
    obtain ⟨token, first, converted⟩ := Option.bind_eq_some_iff.mp read
    obtain ⟨found, rfl, rest, rfl⟩ := (firstToken?_variants_eq_some_iff listed).mp first
    rw [reads] at converted
    cases converted
    rw [List.drop_left]
  · rintro rfl
    have first : firstToken? (variants Color) (color.name ++ rest) = some color.name :=
      (firstToken?_variants_eq_some_iff listed).mpr ⟨color, rfl, rest, rfl⟩
    rw [first, Option.bind_some, reads, Option.map_some, List.drop_left]

theorem converts_matched {g : Grammar} {found : Match} (built : Color.keyword = .ok g)
    (matched : g.parse [] input = .done (some found)) :
    ∃ color : Color, (found.tree.bind Tree.text?).bind fromText? = some color ∧
      color.name ++ found.rest = input := by
  obtain ⟨g', built', ran⟩ := exists_keyword listed
  obtain rfl : g = g' := Except.ok.inj (built.symm.trans built')
  rw [ran] at matched
  obtain ⟨token, first, rfl⟩ := Option.map_eq_some_iff.mp (Outcome.done.inj matched)
  obtain ⟨color, rfl, rest, rfl⟩ := (firstToken?_variants_eq_some_iff listed).mp first
  exact ⟨color, reads color, by rw [taken, List.drop_left]⟩

end

end Peg.Language.Color

namespace Peg.Grammar

open Peg.Language Peg.Language.VariantNames Peg.Language.FromText

variable {tokens : List Text}

/-- A choice among tokens takes the first one that the input starts with, which no order changes
when the tokens do not start each other, and which is the longest when the longer ones stand first.
Whatever lists the names of the colours and reads them back, a text is read as a colour exactly when
it starts with the name of that colour, and what the keywords matched always has a colour. -/
theorem keywords_alternate [VariantNames Color] [FromText Color] (rules : Rules)
    (filled : tokens ≠ []) (nonempty : ∀ token ∈ tokens, token ≠ [])
    (listed : ∀ word, word ∈ variants Color ↔ ∃ color : Color, color.name = word)
    (reads : ∀ color : Color, fromText? color.name = some color) :
    (∃ g, keywords tokens = .ok g ∧ Alternates rules tokens g) ∧
    Color.keyword = keywords (variants Color) ∧
    (∃ g, Color.keyword = .ok g ∧
      ∀ input found, g.parse [] input = .done (some found) →
        ∃ color : Color, (found.tree.bind Tree.text?).bind fromText? = some color ∧
          color.name ++ found.rest = input) ∧
    ∀ input color rest, Color.parse input = some (color, rest) ↔ color.name ++ rest = input := by
  refine ⟨exists_alternates rules filled nonempty, rfl, ?_, ?_⟩
  · obtain ⟨g, built, -⟩ := Color.exists_keyword listed
    exact ⟨g, built, fun _ _ matched => Color.converts_matched listed reads built matched⟩
  · exact fun _ _ _ => Color.parse_eq_some_iff listed reads

def comparisons : List Text := ["<=".toList, "<".toList]

/-- Of two signs for comparisons the longer one is tried first, and taken; and with the words that
a program runs on, a lime is read. -/
theorem comparisons_alternate :
    (comparisons ≠ [] ∧ (∀ token ∈ comparisons, token ≠ []) ∧ LongestFirst comparisons) ∧
    ((∀ word, word ∈ variants Color ↔ ∃ color : Color, color.name = word) ∧
      ∀ color : Color, fromText? color.name = some color) ∧
    (∃ g, keywords comparisons = .ok g ∧
      g.parse [] "<=1".toList = .done (some ⟨"<=".toList, "1".toList, some (.text "<=".toList)⟩) ∧
      g.parse [] ">=1".toList = .done none) ∧
    Color.parse "Lime!".toList = some (.lime, "!".toList) := by
  have filled : comparisons ≠ [] := List.cons_ne_nil _ _
  have nonempty : ∀ token ∈ comparisons, token ≠ [] := by decide
  obtain ⟨⟨g, built, alternates⟩, -, -, colored⟩ :=
    keywords_alternate [] filled nonempty Color.mem_variants Color.fromText?_name
  refine ⟨⟨filled, nonempty, by decide⟩, ⟨Color.mem_variants, Color.fromText?_name⟩,
    ⟨g, built, alternates.first _, ?_⟩, ?_⟩
  · exact (alternates.fails_iff _).mpr (by decide)
  · exact (colored _ _ _).mpr rfl

end Peg.Grammar
