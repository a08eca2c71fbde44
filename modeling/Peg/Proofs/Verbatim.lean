import Mathlib.Logic.Relation
import Peg.Proofs.Derivation.Rows
import Peg.Proofs.Leaves

/-!
Without actions no text is lost or told twice. The leaves of the tree are pieces
of the consumed text, in order and side by side but for gaps, and each gap is what
a white space parser of the grammar took at that very place. Where the grammar
has no such parser, the tree spells the consumed text.
-/
namespace Peg

open Grammar Outcome

namespace Grammar

/-- What stands directly in a grammar and shows in its tree. A capture does not show what
it is made of. -/
inductive Part (rules : Rules) : Grammar → Grammar → Prop
  | sequence {first others g} (member : g ∈ first :: others) : Part rules (.sequence first others) g
  | choice {first others g} (member : g ∈ first :: others) : Part rules (.choice first others) g
  | many (inner) : Part rules (.many inner) inner
  | many1 (inner) : Part rules (.many1 inner) inner
  | value (value separator) : Part rules (.sepBy value separator) value
  | separator (value separator) : Part rules (.sepBy value separator) separator
  | optional (inner) : Part rules (.optional inner) inner
  | label (name inner) : Part rules (.label name inner) inner
  | rule {name g} (known : rules.lookup name = some g) : Part rules (.rule name) g
  | wrapped (shown inner) : Part rules (.wrapped shown inner) inner

/-- One grammar stands in another, or in a rule that this one calls, outside every capture. -/
def Exposes (rules : Rules) : Grammar → Grammar → Prop := Relation.ReflTransGen (Part rules)

end Grammar

/-- A leaf parser whose tree is the text it consumed; one that consumed nothing may have none. -/
def Leaf.Verbatim (parser : Leaf) : Prop :=
  ∀ input found, parser.run input = some found →
    found.tree = some (.text found.parsed) ∨ found.tree = none ∧ found.parsed = []

namespace Leaf

theorem twoChars_verbatim : twoChars.Verbatim := by
  intro input found ran
  match input with
  | [] | [_] => cases ran
  | a :: b :: rest =>
    obtain rfl : _ = found := Option.some.inj ran
    exact .inl rfl

theorem twoBytes_verbatim : twoBytes.Verbatim := by
  intro input found ran
  left
  unfold twoBytes at ran
  dsimp only at ran
  split at ran
  · cases ran
  · split at ran
    · injection ran with ran
      subst ran
      rfl
    · split at ran
      · cases ran
      · split at ran
        · injection ran with ran
          subst ran
          rfl
        · cases ran

def known : List Leaf := [twoChars, twoBytes, never, nothing, emptyText, takeAll]

theorem known_verbatim : ∀ parser ∈ known, parser.Verbatim := by
  simp only [known, List.forall_mem_cons]
  refine ⟨twoChars_verbatim, twoBytes_verbatim, ?never, ?nothing, ?emptyText, ?takeAll,
    List.forall_mem_nil _⟩
  case never => exact fun _ _ ran => nomatch ran
  case nothing =>
    intro input found ran
    obtain rfl : _ = found := Option.some.inj ran
    exact .inr ⟨rfl, rfl⟩
  all_goals
    intro input found ran
    obtain rfl : _ = found := Option.some.inj ran
    exact .inl rfl

end Leaf

/-- No action stands outside the captures of a grammar, and its leaf parsers keep their text. -/
structure Grammar.Verbatim (rules : Rules) (g : Grammar) : Prop where
  actions : ∀ inner act, ¬ Exposes rules g (.action inner act)
  leaves : ∀ parser, Exposes rules g (.leaf parser) → parser.Verbatim

theorem Grammar.Verbatim.part {rules : Rules} {g inner : Grammar} (verbatim : g.Verbatim rules)
    (part : Part rules g inner) : inner.Verbatim rules where
  actions deeper act exposed := verbatim.actions deeper act (.head part exposed)
  leaves parser exposed := verbatim.leaves parser (.head part exposed)

theorem Grammar.Verbatim.of_known {rules : Rules} {g : Grammar}
    (actions : ∀ inner act, ¬ Exposes rules g (.action inner act))
    (leaves : ∀ parser, Exposes rules g (.leaf parser) → parser ∈ Leaf.known) :
    g.Verbatim rules :=
  ⟨actions, fun parser exposed => Leaf.known_verbatim parser (leaves parser exposed)⟩

inductive RowMatches (rules : Rules) : List Grammar → Text → Grammar → Text → Prop
  | head {g gs input found} (matched : Derives rules g input (.done (some found))) :
      RowMatches rules (g :: gs) input g input
  | tail {g gs input found part text} (matched : Derives rules g input (.done (some found)))
      (later : RowMatches rules gs found.rest part text) : RowMatches rules (g :: gs) input part text

inductive ChoiceMatches (rules : Rules) : List Grammar → Text → Grammar → Prop
  | here {g gs input found} (matched : Derives rules g input (.done (some found))) :
      ChoiceMatches rules (g :: gs) input g
  | later {g gs input part} (failed : Derives rules g input (.done none))
      (candidate : ChoiceMatches rules gs input part) : ChoiceMatches rules (g :: gs) input part

inductive RoundMatches (rules : Rules) (inner : Grammar) : Text → Text → Prop
  | here {input found} (matched : Derives rules inner input (.done (some found)))
      (nonempty : found.parsed ≠ []) : RoundMatches rules inner input input
  | later {input found text} (matched : Derives rules inner input (.done (some found)))
      (nonempty : found.parsed ≠ []) (round : RoundMatches rules inner found.rest text) :
      RoundMatches rules inner input text

inductive PairMatches (rules : Rules) (value separator : Grammar) : Text → Grammar → Text → Prop
  | separator {input before found} (gap : Derives rules separator input (.done (some before)))
      (item : Derives rules value before.rest (.done (some found)))
      (nonempty : ¬ (before.parsed = [] ∧ found.parsed = [])) :
      PairMatches rules value separator input separator input
  | value {input before found} (gap : Derives rules separator input (.done (some before)))
      (item : Derives rules value before.rest (.done (some found)))
      (nonempty : ¬ (before.parsed = [] ∧ found.parsed = [])) :
      PairMatches rules value separator input value before.rest
  | later {input before found part text}
      (gap : Derives rules separator input (.done (some before)))
      (item : Derives rules value before.rest (.done (some found)))
      (nonempty : ¬ (before.parsed = [] ∧ found.parsed = []))
      (pair : PairMatches rules value separator found.rest part text) :
      PairMatches rules value separator input part text

/-- The match of a grammar on a text is made of the match of one of its parts, on a text
further on. -/
inductive Keeps (rules : Rules) : Grammar × Text → Grammar × Text → Prop
  | sequence {first others input part text}
      (kept : RowMatches rules (first :: others) input part text) :
      Keeps rules (.sequence first others, input) (part, text)
  | choice {first others input part} (kept : ChoiceMatches rules (first :: others) input part) :
      Keeps rules (.choice first others, input) (part, input)
  | many {inner input text} (kept : RoundMatches rules inner input text) :
      Keeps rules (.many inner, input) (inner, text)
  | many1 {inner input text} (kept : RoundMatches rules inner input text) :
      Keeps rules (.many1 inner, input) (inner, text)
  | first {value separator input found} (matched : Derives rules value input (.done (some found))) :
      Keeps rules (.sepBy value separator, input) (value, input)
  | pair {value separator input found part text}
      (matched : Derives rules value input (.done (some found)))
      (kept : PairMatches rules value separator found.rest part text) :
      Keeps rules (.sepBy value separator, input) (part, text)
  | optional {inner input found} (matched : Derives rules inner input (.done (some found))) :
      Keeps rules (.optional inner, input) (inner, input)
  | label (name inner input) : Keeps rules (.label name inner, input) (inner, input)
  | rule {name g input} (known : rules.lookup name = some g) :
      Keeps rules (.rule name, input) (g, input)
  | wrapped (shown inner input) : Keeps rules (.wrapped shown inner, input) (inner, input)

/-- In the match of a grammar on a text, a white space parser takes `blanks` in front of `rest`. -/
def Skips (rules : Rules) (g : Grammar) (input blanks rest : Text) : Prop :=
  Relation.ReflTransGen (Keeps rules) (g, input) (.whitespace, blanks ++ rest) ∧
    Derives rules .whitespace (blanks ++ rest) (.done (some ⟨blanks, rest, none⟩))

/-- Leaves of text side by side, with gaps, make up a text that `rest` follows. -/
inductive Woven (gap : Text → Text → Prop) (rest : Text) : List Tree → Text → Prop
  | nil : Woven gap rest [] []
  | kept (piece) {leaves text} (later : Woven gap rest leaves text) :
      Woven gap rest (.text piece :: leaves) (piece ++ text)
  | skipped {blanks leaves text} (skip : gap blanks (text ++ rest))
      (later : Woven gap rest leaves text) : Woven gap rest leaves (blanks ++ text)

namespace Woven

variable {gap wider : Text → Text → Prop} {rest text behind : Text} {leaves more : List Tree}

theorem imp (woven : Woven gap rest leaves text)
    (weaker : ∀ blanks rest, gap blanks rest → wider blanks rest) :
    Woven wider rest leaves text := by
  induction woven with
  | nil => exact .nil
  | kept piece _ ih => exact .kept piece ih
  | skipped skip _ ih => exact .skipped (weaker _ _ skip) ih

theorem append (front : Woven gap (behind ++ rest) leaves text) (back : Woven gap rest more behind) :
    Woven gap rest (leaves ++ more) (text ++ behind) := by
  induction front with
  | nil => exact back
  | kept piece _ ih =>
    rw [List.append_assoc]
    exact .kept piece ih
  | skipped skip _ ih =>
    rw [List.append_assoc]
    rw [← List.append_assoc] at skip
    exact .skipped skip ih

theorem of_text (found : Match)
    (spelled : found.tree = some (.text found.parsed) ∨ found.tree = none ∧ found.parsed = []) :
    Woven gap rest found.leaves found.parsed := by
  unfold Match.leaves
  rcases spelled with tree | ⟨tree, empty⟩
  · rw [tree]
    have woven : Woven gap rest [.text found.parsed] (found.parsed ++ []) := .kept _ .nil
    rwa [List.append_nil] at woven
  · rw [tree, empty]
    exact .nil

theorem spells (woven : Woven gap rest leaves text) (gapless : ∀ blanks rest, ¬ gap blanks rest) :
    leaves.flatMap Tree.spelled = text := by
  induction woven with
  | nil => rfl
  | kept piece _ ih =>
    rw [List.flatMap_cons, ih]
    rfl
  | skipped skip _ _ => exact absurd skip (gapless _ _)

end Woven

theorem Match.leaves_joined (input : Text) (row : List Match) :
    (Match.joined input row).leaves = row.flatMap Match.leaves := by
  have trees : (row.filterMap (·.tree)).flatMap Tree.leaves = row.flatMap Match.leaves := by
    induction row with
    | nil => rfl
    | cons found row ih =>
      rw [Match.trees_cons, List.flatMap_append, List.flatMap_cons, ih]
      rfl
  rw [← trees, ← Tree.leavesOf_eq_flatMap]
  exact List.append_nil _

theorem Woven.cons {gap : Text → Text → Prop} {found : Match} {row : List Match}
    (later : Match.Consecutive found.rest row) (head : Woven gap found.rest found.leaves found.parsed)
    (tail : Woven gap (Match.after found.rest row) (row.flatMap Match.leaves)
      (row.flatMap (·.parsed))) :
    Woven gap (Match.after found.rest row) ((found :: row).flatMap Match.leaves)
      ((found :: row).flatMap (·.parsed)) := by
  rw [List.flatMap_cons, List.flatMap_cons]
  refine .append ?_ tail
  rwa [later.splits]

def SkipsIn (rules : Rules) (matched : Grammar → Text → Prop) (blanks rest : Text) : Prop :=
  ∃ part text, matched part text ∧ Skips rules part text blanks rest

theorem SkipsIn.imp {rules : Rules} {matched wider : Grammar → Text → Prop} {blanks rest : Text}
    (skips : SkipsIn rules matched blanks rest)
    (weaker : ∀ part text, matched part text → wider part text) :
    SkipsIn rules wider blanks rest := by
  obtain ⟨part, text, kept, skips⟩ := skips
  exact ⟨part, text, weaker part text kept, skips⟩

theorem Skips.of_part {rules : Rules} {g part : Grammar} {input text blanks rest : Text}
    (skips : Skips rules part text blanks rest) (kept : Keeps rules (g, input) (part, text)) :
    Skips rules g input blanks rest :=
  ⟨.head kept skips.1, skips.2⟩

theorem SkipsIn.skips {rules : Rules} {matched : Grammar → Text → Prop} {g : Grammar}
    {input blanks rest : Text} (skips : SkipsIn rules matched blanks rest)
    (keeps : ∀ part text, matched part text → Keeps rules (g, input) (part, text)) :
    Skips rules g input blanks rest := by
  obtain ⟨part, text, kept, skips⟩ := skips
  exact skips.of_part (keeps part text kept)

mutual

theorem Derives.woven {rules : Rules} {g : Grammar} {input : Text}
    {outcome : Outcome (Option Match)} (derived : Derives rules g input outcome) {found : Match}
    (same : outcome = .done (some found)) (verbatim : g.Verbatim rules) :
    Woven (Skips rules g input) found.rest found.leaves found.parsed := by
  match derived with
  | .tokenFails .. | .charFails .. | .charAtEnd .. | .endOfInputFails .. | .sequenceFails ..
  | .sequenceFaults .. | .manyFaults .. | .many1Fails .. | .many1Faults .. | .sepByFaults ..
  | .sepByPairFaults .. | .captureFails .. | .captureFaults .. | .actionFails ..
  | .actionFaults .. | .actionInnerFaults .. | .optionalFaults .. | .unknownRule .. => cases same
  | .emptyToken _ | .endOfInput | .manyNone _ | .sepByNone _ | .optionalNone _ =>
    cases same
    exact .of_text _ (.inr ⟨rfl, rfl⟩)
  | .token .. | .char .. =>
    cases same
    exact .of_text _ (.inl rfl)
  | .whitespace blanks rest blank ends =>
    cases same
    have skips : Skips rules .whitespace (blanks ++ rest) blanks rest :=
      ⟨.refl, .whitespace blanks rest blank ends⟩
    have woven : Woven (Skips rules .whitespace (blanks ++ rest)) rest [] (blanks ++ []) :=
      .skipped skips .nil
    rwa [List.append_nil] at woven
  | .leaf parser input =>
    have ran : parser.run input = some found := by injection same
    exact .of_text _ (verbatim.leaves parser .refl input found ran)
  | .action _ _ => exact absurd .refl (verbatim.actions _ _)
  | @Derives.capture _ _ _ inside _ =>
    cases same
    refine .of_text _ ?_
    by_cases empty : inside.parsed = []
    · exact .inr ⟨if_pos empty, empty⟩
    · exact .inl (if_neg empty)
  | .sequence parts =>
    cases same
    rw [Match.leaves_joined]
    refine (parts.woven rfl fun g member => verbatim.part (.sequence member)).imp ?_
    exact fun _ _ skips => skips.skips fun _ _ kept => .sequence kept
  | .choice candidates =>
    refine (candidates.woven same fun g member => verbatim.part (.choice member)).imp ?_
    refine fun _ _ skips => skips.skips fun part text kept => ?_
    obtain ⟨kept, rfl⟩ := kept
    exact .choice kept
  | .many rounds =>
    cases same
    rw [Match.leaves_joined]
    refine (rounds.woven rfl (verbatim.part (.many _))).imp ?_
    refine fun _ _ skips => skips.skips fun part text kept => ?_
    obtain ⟨rfl, kept⟩ := kept
    exact .many kept
  | .many1 rounds =>
    cases same
    rw [Match.leaves_joined]
    refine (rounds.woven rfl (verbatim.part (.many1 _))).imp ?_
    refine fun _ _ skips => skips.skips fun part text kept => ?_
    obtain ⟨rfl, kept⟩ := kept
    exact .many1 kept
  | .sepBy first later =>
    cases same
    have value := verbatim.part (.value _ _)
    have separator := verbatim.part (.separator _ _)
    rw [Match.leaves_joined]
    refine .cons later.consecutive ?_ ?_
    · exact (first.woven rfl value).imp fun _ _ skips => skips.of_part (.first first)
    · refine (later.woven rfl value separator).imp ?_
      exact fun _ _ skips => skips.skips fun _ _ kept => .pair first kept
  | .optional inside =>
    have woven := inside.woven same (verbatim.part (.optional _))
    exact woven.imp fun _ _ skips => skips.of_part (.optional inside)
  | .label inside =>
    have woven := inside.woven same (verbatim.part (.label _ _))
    exact woven.imp fun _ _ skips => skips.of_part (.label _ _ _)
  | .wrapped inside =>
    have woven := inside.woven same (verbatim.part (.wrapped _ _))
    exact woven.imp fun _ _ skips => skips.of_part (.wrapped _ _ _)
  | .rule known body =>
    have woven := body.woven same (verbatim.part (.rule known))
    exact woven.imp fun _ _ skips => skips.of_part (.rule known)

theorem DerivesRow.woven {rules : Rules} {gs : List Grammar} {input : Text}
    {outcome : Outcome (Option (List Match))} (derived : DerivesRow rules gs input outcome)
    {row : List Match} (same : outcome = .done (some row))
    (verbatim : ∀ g ∈ gs, g.Verbatim rules) :
    Woven (SkipsIn rules (RowMatches rules gs input)) (Match.after input row)
      (row.flatMap Match.leaves) (row.flatMap (·.parsed)) := by
  match derived with
  | .headFails .. | .headFaults .. | .tailFails .. | .tailFaults .. => cases same
  | .nil _ =>
    cases same
    exact .nil
  | .cons head tail =>
    cases same
    obtain ⟨first, others⟩ := List.forall_mem_cons.mp verbatim
    refine .cons (tail.consecutive _ rfl) ?_ ?_
    · exact (head.woven rfl first).imp fun _ _ skips => ⟨_, _, .head head, skips⟩
    · exact (tail.woven rfl others).imp fun _ _ skips => skips.imp fun _ _ => .tail head

theorem DerivesChoice.woven {rules : Rules} {gs : List Grammar} {input : Text}
    {outcome : Outcome (Option Match)} (derived : DerivesChoice rules gs input outcome)
    {found : Match} (same : outcome = .done (some found)) (verbatim : ∀ g ∈ gs, g.Verbatim rules) :
    Woven (SkipsIn rules fun part text => ChoiceMatches rules gs input part ∧ text = input)
      found.rest found.leaves found.parsed := by
  match derived with
  | .nil .. | .hereFaults .. => cases same
  | .here head =>
    have woven := head.woven same (List.forall_mem_cons.mp verbatim).1
    exact woven.imp fun _ _ skips => ⟨_, _, ⟨.here head, rfl⟩, skips⟩
  | .later head tail =>
    have woven := tail.woven same (List.forall_mem_cons.mp verbatim).2
    exact woven.imp fun _ _ skips => skips.imp fun _ _ kept => ⟨.later head kept.1, kept.2⟩

theorem DerivesRepetition.woven {rules : Rules} {g : Grammar} {input : Text}
    {outcome : Outcome (List Match)} (derived : DerivesRepetition rules g input outcome)
    {row : List Match} (same : outcome = .done row) (verbatim : g.Verbatim rules) :
    Woven (SkipsIn rules fun part text => part = g ∧ RoundMatches rules g input text)
      (Match.after input row) (row.flatMap Match.leaves) (row.flatMap (·.parsed)) := by
  match derived with
  | .faults .. | .moreFaults .. => cases same
  | .fails .. | .empty .. =>
    cases same
    exact .nil
  | .more head nonempty tail =>
    cases same
    refine .cons tail.consecutive ?_ ?_
    · have woven := head.woven rfl verbatim
      exact woven.imp fun _ _ skips => ⟨_, _, ⟨rfl, .here head nonempty⟩, skips⟩
    · have woven := tail.woven rfl verbatim
      exact woven.imp fun _ _ skips =>
        skips.imp fun _ _ kept => ⟨kept.1, .later head nonempty kept.2⟩

theorem DerivesPairs.woven {rules : Rules} {value separator : Grammar} {input : Text}
    {outcome : Outcome (List Match)} (derived : DerivesPairs rules value separator input outcome)
    {row : List Match} (same : outcome = .done row) (items : value.Verbatim rules)
    (gaps : separator.Verbatim rules) :
    Woven (SkipsIn rules (PairMatches rules value separator input)) (Match.after input row)
      (row.flatMap Match.leaves) (row.flatMap (·.parsed)) := by
  match derived with
  | .separatorFaults .. | .valueFaults .. | .moreFaults .. => cases same
  | .separatorFails .. | .valueFails .. | .bothEmpty .. =>
    cases same
    exact .nil
  | .more gap item nonempty tail =>
    cases same
    have behind := tail.consecutive
    have between := splits_matched.mp item.splits
    refine .cons ⟨between, behind⟩ ?_ (.cons behind ?_ ?_)
    · exact (gap.woven rfl gaps).imp fun _ _ skips =>
        ⟨_, _, .separator gap item nonempty, skips⟩
    · exact (item.woven rfl items).imp fun _ _ skips => ⟨_, _, .value gap item nonempty, skips⟩
    · exact (tail.woven rfl items gaps).imp fun _ _ skips =>
        skips.imp fun _ _ => .later gap item nonempty

end

theorem RowMatches.member {rules : Rules} {gs : List Grammar} {input text : Text} {part : Grammar}
    (matched : RowMatches rules gs input part text) : part ∈ gs := by
  induction matched with
  | head _ => exact List.mem_cons_self
  | tail _ _ ih => exact List.mem_cons_of_mem _ ih

theorem ChoiceMatches.member {rules : Rules} {gs : List Grammar} {input : Text} {part : Grammar}
    (matched : ChoiceMatches rules gs input part) : part ∈ gs := by
  induction matched with
  | here _ => exact List.mem_cons_self
  | later _ _ ih => exact List.mem_cons_of_mem _ ih

theorem PairMatches.side {rules : Rules} {value separator part : Grammar} {input text : Text}
    (matched : PairMatches rules value separator input part text) :
    part = separator ∨ part = value := by
  induction matched with
  | separator _ _ _ => exact .inl rfl
  | value _ _ _ => exact .inr rfl
  | later _ _ _ _ ih => exact ih

theorem Keeps.part {rules : Rules} {whole inside : Grammar × Text}
    (keeps : Keeps rules whole inside) : Part rules whole.1 inside.1 := by
  cases keeps with
  | sequence kept => exact .sequence kept.member
  | choice kept => exact .choice kept.member
  | many _ => exact .many _
  | many1 _ => exact .many1 _
  | first _ => exact .value _ _
  | pair _ kept =>
    rcases kept.side with rfl | rfl
    · exact .separator _ _
    · exact .value _ _
  | optional _ => exact .optional _
  | label => exact .label _ _
  | rule known => exact .rule known
  | wrapped => exact .wrapped _ _

theorem Skips.exposes {rules : Rules} {g : Grammar} {input blanks rest : Text}
    (skips : Skips rules g input blanks rest) : Exposes rules g .whitespace :=
  skips.1.lift Prod.fst fun _ _ keeps => keeps.part

theorem Derives.spells {rules : Rules} {g : Grammar} {input : Text} {found : Match}
    (derived : Derives rules g input (.done (some found))) (verbatim : g.Verbatim rules)
    (solid : ¬ Exposes rules g .whitespace) : found.flattenText = found.parsed := by
  rw [Match.flattenText_eq_spelled]
  exact (derived.woven rfl verbatim).spells fun blanks rest skips => solid skips.exposes

namespace Grammar

/-- The leaves of the tree are pieces of what was consumed, in order and apart only by what
white space parsers took; without such parsers the tree spells what was consumed. -/
theorem leaves_woven {rules : Rules} {g : Grammar} {input : Text} {found : Match}
    (verbatim : g.Verbatim rules) (ran : g.parse rules input = .done (some found)) :
    Woven (Skips rules g input) found.rest found.leaves found.parsed ∧
      (¬ Exposes rules g .whitespace → found.flattenText = found.parsed) := by
  have derived := derives_of_done ran
  exact ⟨derived.woven rfl verbatim, derived.spells verbatim⟩

/-- The leaf parsers at hand never stand in the way. -/
theorem woven_of_known {rules : Rules} {g : Grammar} {input : Text} {found : Match}
    (actions : ∀ inner act, ¬ Exposes rules g (.action inner act))
    (leaves : ∀ parser, Exposes rules g (.leaf parser) → parser ∈ Leaf.known)
    (ran : g.parse rules input = .done (some found)) :
    Woven (Skips rules g input) found.rest found.leaves found.parsed ∧
      (¬ Exposes rules g .whitespace → found.flattenText = found.parsed) := by
  have derived := derives_of_done ran
  have verbatim := Verbatim.of_known actions leaves
  exact ⟨derived.woven rfl verbatim, derived.spells verbatim⟩

def parenthesized : Grammar :=
  choice (sequence (token "(") [whitespace, rule "item".toList, whitespace, token ")"])
    [leaf .twoChars]

def parenthesizedRules : Rules := [("item".toList, parenthesized)]

theorem parenthesized_exposes {part : Grammar}
    (exposed : Exposes parenthesizedRules parenthesized part) :
    part ∈ [parenthesized,
      sequence (token "(") [whitespace, rule "item".toList, whitespace, token ")"],
      token "(", whitespace, rule "item".toList, token ")", leaf .twoChars] := by
  induction exposed with
  | refl => exact List.mem_cons_self
  | tail _ step ih =>
    simp only [List.mem_cons, List.not_mem_nil, or_false] at ih
    rcases ih with rfl | rfl | rfl | rfl | rfl | rfl | rfl
    · cases step with
      | choice member =>
        simp only [List.mem_cons, List.not_mem_nil, or_false] at member
        rcases member with rfl | rfl <;> simp
    · cases step with
      | sequence member =>
        simp only [List.mem_cons, List.not_mem_nil, or_false] at member
        rcases member with rfl | rfl | rfl | rfl | rfl <;> simp
    · cases step
    · cases step
    · cases step with
      | rule known =>
        cases known
        exact List.mem_cons_self
    · cases step
    · cases step

theorem parenthesized_verbatim : parenthesized.Verbatim parenthesizedRules := by
  refine .of_known (fun inner act exposed => ?_) fun parser exposed => ?_
  · have member := parenthesized_exposes exposed
    simp [parenthesized, token] at member
  · have member := parenthesized_exposes exposed
    simp only [parenthesized, token, List.mem_cons, List.not_mem_nil, reduceCtorEq, false_or,
      or_false, leaf.injEq] at member
    subst member
    exact List.mem_cons_self

theorem parenthesized_derives : Derives parenthesizedRules parenthesized "( ab )!".toList
    (.done (some ⟨"( ab )".toList, "!".toList,
      some (.list [.text ['('], .text ['a', 'b'], .text [')']])⟩)) := by
  have item : Derives parenthesizedRules (rule "item".toList) "ab )!".toList _ :=
    .rule rfl (.choice (.later (.sequenceFails (.headFails (.tokenFails _ _ (by decide))))
      (.here (.leaf .twoChars _))))
  have before : Derives parenthesizedRules whitespace " ab )!".toList
      (.done (some ⟨[' '], "ab )!".toList, none⟩)) := .whitespace_of _
  have after : Derives parenthesizedRules whitespace " )!".toList
      (.done (some ⟨[' '], ")!".toList, none⟩)) := .whitespace_of _
  have first : Derives parenthesizedRules (token "(") "( ab )!".toList _ :=
    .token ['('] " ab )!".toList (by decide)
  have last : Derives parenthesizedRules (token ")") ")!".toList _ :=
    .token [')'] "!".toList (by decide)
  exact .choice (.here (.sequence
    (.cons first (.cons before (.cons item (.cons after (.cons last (.nil _))))))))

theorem parenthesized_leaves_woven :
    (parenthesized.Verbatim parenthesizedRules ∧
      parenthesized.parse parenthesizedRules "( ab )!".toList =
        .done (some ⟨"( ab )".toList, "!".toList,
          some (.list [.text ['('], .text ['a', 'b'], .text [')']])⟩)) ∧
    Woven (Skips parenthesizedRules parenthesized "( ab )!".toList) "!".toList
      [.text ['('], .text ['a', 'b'], .text [')']] "( ab )".toList :=
  have ran := parse_eq_of_derives parenthesized_derives
  ⟨⟨parenthesized_verbatim, ran⟩, (leaves_woven parenthesized_verbatim ran).1⟩

end Grammar
end Peg
