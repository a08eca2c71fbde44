import Peg.Proofs.Derivation.Rows

/-!
A separated list stands for a sequence: maybe a value, and behind it as many
pairs of a separator and a value as there are. Both run the same parsers on the
same texts and end alike. Where the sequence has a list of its own for each pair,
the separated list has the items of those lists.
-/
namespace Peg

open Grammar

variable {rules : Rules} {value separator : Grammar}

abbrev Match.Pair := Match × Match

namespace Match.Pair

def row (pair : Pair) : List Match := [pair.1, pair.2]

def joined (pair : Pair) : Match := Match.joined [] pair.row

def trees (pair : Pair) : List Tree := pair.row.filterMap (·.tree)

theorem joined_empty_iff {before found : Match} :
    (joined (before, found)).parsed = [] ↔ before.parsed = [] ∧ found.parsed = [] := by
  simp [joined, row, Match.joined]

theorem flatMap_parsed (pairs : List Pair) :
    (pairs.flatMap row).flatMap (·.parsed) = (pairs.map joined).flatMap (·.parsed) := by
  induction pairs with
  | nil => rfl
  | cons pair pairs ih =>
    rw [List.flatMap_cons, List.flatMap_append, List.map_cons, List.flatMap_cons, ih]
    rfl

theorem after_eq (input : Text) (pairs : List Pair) :
    Match.after input (pairs.flatMap row) = Match.after input (pairs.map joined) := by
  induction pairs generalizing input with
  | nil => rfl
  | cons pair pairs ih => exact ih pair.2.rest

theorem filterMap_tree (pairs : List Pair) :
    (pairs.flatMap row).filterMap (·.tree) = (pairs.map trees).flatten := by
  rw [List.filterMap_flatMap, ← List.flatMap_def]
  rfl

theorem filterMap_joined (pairs : List Pair) :
    (pairs.map joined).filterMap (·.tree) = (pairs.map trees).map .list := by
  induction pairs with
  | nil => rfl
  | cons pair pairs ih =>
    rw [List.map_cons, Match.trees_cons, ih]
    rfl

end Match.Pair

open Match

theorem Derives.pair {input : Text} {before found : Match}
    (gap : Derives rules separator input (.done (some before)))
    (item : Derives rules value before.rest (.done (some found))) :
    Derives rules (.sequence separator [value]) input
      (.done (some (Pair.joined (before, found)))) :=
  .sequence (.cons gap (.cons item (.nil _)))

theorem Derives.pair_rest_length_lt {input : Text} {before found : Match}
    (gap : Derives rules separator input (.done (some before)))
    (item : Derives rules value before.rest (.done (some found)))
    (nonempty : ¬ (before.parsed = [] ∧ found.parsed = [])) :
    found.rest.length < input.length :=
  Match.pair_rest_length_lt (Outcome.splits_matched.mp gap.splits)
    (Outcome.splits_matched.mp item.splits) nonempty

theorem DerivesPairs.rounds {input : Text} {outcome : Outcome (List Match)}
    (derived : DerivesPairs rules value separator input outcome) :
    ∃ pairs : Outcome (List Pair), outcome = List.flatMap Pair.row <$> pairs ∧
      DerivesRepetition rules (.sequence separator [value]) input
        (List.map Pair.joined <$> pairs) := by
  induction size : input.length using Nat.strong_induction_on generalizing input outcome with
  | _ n shorter =>
    subst size
    cases derived with
    | separatorFails gap => exact ⟨.done [], rfl, .fails (.sequenceFails (.headFails gap))⟩
    | separatorFaults gap => exact ⟨.fault _, rfl, .faults (.sequenceFaults (.headFaults gap))⟩
    | valueFails gap item =>
      exact ⟨.done [], rfl, .fails (.sequenceFails (.tailFails gap (.headFails item)))⟩
    | valueFaults gap item =>
      exact ⟨.fault _, rfl, .faults (.sequenceFaults (.tailFaults gap (.headFaults item)))⟩
    | bothEmpty gap item idle =>
      exact ⟨.done [], rfl, .empty (.pair gap item) (Pair.joined_empty_iff.mpr idle)⟩
    | more gap item nonempty tail =>
      have some := mt Pair.joined_empty_iff.mp nonempty
      have less := gap.pair_rest_length_lt item nonempty
      obtain ⟨pairs | _ | _ | _, same, later⟩ := shorter _ less tail rfl <;> cases same
      exact ⟨.done (_ :: pairs), rfl, .more (.pair gap item) some later⟩
    | moreFaults gap item nonempty tail =>
      have some := mt Pair.joined_empty_iff.mp nonempty
      have less := gap.pair_rest_length_lt item nonempty
      obtain ⟨_ | cause | _ | _, same, later⟩ := shorter _ less tail rfl <;> cases same
      exact ⟨.fault _, rfl, .moreFaults (.pair gap item) some later⟩

theorem DerivesRow.pair_matched {input : Text} {row : List Match}
    (derived : DerivesRow rules [separator, value] input (.done (some row))) :
    ∃ before found, row = [before, found] ∧ Derives rules separator input (.done (some before)) ∧
      Derives rules value before.rest (.done (some found)) := by
  cases derived with
  | cons gap tail =>
    cases tail with
    | cons item tail =>
      cases tail
      exact ⟨_, _, rfl, gap, item⟩

theorem DerivesRow.head_derived {g : Grammar} {gs : List Grammar} {input : Text}
    {outcome : Outcome (Option (List Match))} (derived : DerivesRow rules (g :: gs) input outcome) :
    ∃ ended, Derives rules g input ended := by
  cases derived with
  | headFails head | headFaults head | cons head | tailFails head | tailFaults head =>
    exact ⟨_, head⟩

theorem Derives.parts {first second : Grammar} {input : Text} {outcome : Outcome (Option Match)}
    (derived : Derives rules (.sequence first [second]) input outcome) :
    Derives rules first input (.done none) ∨
      (∃ cause, Derives rules first input (.fault cause)) ∨
      ∃ found ended, Derives rules first input (.done (some found)) ∧
        Derives rules second found.rest ended := by
  have parts : ∃ ended, DerivesRow rules [first, second] input ended := by
    cases derived with
    | sequence parts | sequenceFails parts | sequenceFaults parts => exact ⟨_, parts⟩
  obtain ⟨ended, parts⟩ := parts
  cases parts with
  | headFails head => exact .inl head
  | headFaults head => exact .inr (.inl ⟨_, head⟩)
  | cons head later | tailFails head later | tailFaults head later =>
    obtain ⟨_, tail⟩ := later.head_derived
    exact .inr (.inr ⟨_, _, head, tail⟩)

theorem DerivesRepetition.pairs {input : Text} {outcome : Outcome (List Match)}
    (derived : DerivesRepetition rules (.sequence separator [value]) input outcome) :
    ∃ ended, DerivesPairs rules value separator input ended := by
  induction size : input.length using Nat.strong_induction_on generalizing input outcome with
  | _ n shorter =>
    subst size
    cases derived with
    | fails stop =>
      cases stop with
      | sequenceFails parts =>
        cases parts with
        | headFails gap => exact ⟨_, .separatorFails gap⟩
        | tailFails gap tail =>
          cases tail with
          | headFails item => exact ⟨_, .valueFails gap item⟩
          | tailFails _ nothing => cases nothing
    | faults stop =>
      cases stop with
      | sequenceFaults parts =>
        cases parts with
        | headFaults gap => exact ⟨_, .separatorFaults gap⟩
        | tailFaults gap tail =>
          cases tail with
          | headFaults item => exact ⟨_, .valueFaults gap item⟩
          | tailFaults _ nothing => cases nothing
    | empty stop idle =>
      cases stop with
      | sequence parts =>
        obtain ⟨before, found, rfl, gap, item⟩ := parts.pair_matched
        exact ⟨_, .bothEmpty gap item (Pair.joined_empty_iff.mp idle)⟩
    | more head nonempty tail | moreFaults head nonempty tail =>
      have less := Match.rest_length_lt (Outcome.splits_matched.mp head.splits) nonempty
      obtain ⟨ended, later⟩ := shorter _ less tail rfl
      cases head with
      | sequence parts =>
        obtain ⟨before, found, rfl, gap, item⟩ := parts.pair_matched
        have some := mt Pair.joined_empty_iff.mpr nonempty
        rcases later.consecutive.elim with ⟨row, rfl, -⟩ | ⟨cause, rfl⟩
        · exact ⟨_, .more gap item some later⟩
        · exact ⟨_, .moreFaults gap item some later⟩

namespace Grammar

/-- An optional value with any number of pairs of a separator and a value behind it. -/
def expansion (value separator : Grammar) : Grammar :=
  optional (sequence value [many (sequence separator [value])])

/-- The ends of a separated list and of its expansion. The first value is followed by
`rounds` of the pair, each with a list of trees of its own. -/
inductive SplicedEnd (rules : Rules) (value separator : Grammar) (input : Text) :
    Outcome (Option Match) → Outcome (Option Match) → Prop
  | unfinished : SplicedEnd rules value separator input .unfinished .unfinished
  | fault (cause) : SplicedEnd rules value separator input (.fault cause) (.fault cause)
  | noValue (first : value.parse rules input = .done none) :
      SplicedEnd rules value separator input (.done (some (.empty input)))
        (.done (some (.empty input)))
  | values {item rounds : Match} (first : value.parse rules input = .done (some item))
      (later : (many (sequence separator [value])).parse rules item.rest = .done (some rounds))
      (pairs : List (List Tree))
      (listed : rounds.tree = if pairs = [] then none else some (.list (pairs.map .list))) :
      SplicedEnd rules value separator input
        (.done (some ⟨item.parsed ++ rounds.parsed, rounds.rest,
          some (.list (item.tree.toList ++ pairs.flatten))⟩))
        (.done (some ⟨item.parsed ++ rounds.parsed, rounds.rest,
          some (.list (item.tree.toList ++ rounds.tree.toList))⟩))

theorem derives_expansion_of_sepBy {input : Text} {outcome : Outcome (Option Match)}
    (derived : Derives rules (sepBy value separator) input outcome) :
    ∃ ended, Derives rules (expansion value separator) input ended ∧
      SplicedEnd rules value separator input outcome ended := by
  cases derived with
  | sepByNone first =>
    exact ⟨_, .optionalNone (.sequenceFails (.headFails first)),
      .noValue (parse_eq_of_derives first)⟩
  | sepByFaults first => exact ⟨_, .optionalFaults (.sequenceFaults (.headFaults first)), .fault _⟩
  | sepByPairFaults first later =>
    obtain ⟨_ | cause | _ | _, same, rounds⟩ := later.rounds <;> cases same
    have stop := Derives.manyFaults rounds
    exact ⟨_, .optionalFaults (.sequenceFaults (.tailFaults first (.headFaults stop))), .fault _⟩
  | @sepBy _ _ _ item row first later =>
    obtain ⟨pairs | _ | _ | _, same, rounds⟩ := later.rounds <;> cases same
    have many := Derives.many_of_rounds rounds
    have listed : (if pairs.map Pair.joined = [] then none
        else some (Tree.list ((pairs.map Pair.joined).filterMap (·.tree)))) =
        if pairs.map Pair.trees = [] then none
        else some (.list ((pairs.map Pair.trees).map .list)) := by
      rw [Pair.filterMap_joined]
      simp only [List.map_eq_nil_iff]
    have joined : Match.joined input (item :: pairs.flatMap Pair.row) =
        ⟨item.parsed ++ (pairs.map Pair.joined).flatMap (·.parsed),
          Match.after item.rest (pairs.map Pair.joined),
          some (.list (item.tree.toList ++ (pairs.map Pair.trees).flatten))⟩ := by
      rw [Match.joined, List.flatMap_cons, Pair.flatMap_parsed, Match.after, Pair.after_eq,
        Match.trees_cons, Pair.filterMap_tree]
    have whole : Derives rules (expansion value separator) input _ :=
      .optional (.sequence (.cons first (.cons many (.nil _))))
    rw [Match.joined, List.flatMap_cons, List.flatMap_singleton, Match.after, Match.after,
      Match.after, Match.trees_cons, Match.trees_cons, List.filterMap_nil, List.append_nil] at whole
    rw [joined]
    exact ⟨_, whole,
      .values (parse_eq_of_derives first) (parse_eq_of_derives many) _ listed⟩

theorem exists_derives_sepBy {input : Text} {outcome : Outcome (Option Match)}
    (derived : Derives rules (expansion value separator) input outcome) :
    ∃ ended, Derives rules (sepBy value separator) input ended := by
  have inside : ∃ whole, Derives rules (sequence value [many (sequence separator [value])])
      input whole := by
    cases derived with
    | optional inside | optionalNone inside | optionalFaults inside => exact ⟨_, inside⟩
  obtain ⟨whole, inside⟩ := inside
  rcases inside.parts with stop | ⟨cause, stop⟩ | ⟨item, ended, first, later⟩
  · exact ⟨_, .sepByNone stop⟩
  · exact ⟨_, .sepByFaults stop⟩
  · have rounds : ∃ rounds, DerivesRepetition rules (sequence separator [value]) item.rest rounds := by
      cases later with
      | manyNone rounds | many rounds | manyFaults rounds => exact ⟨_, rounds⟩
    obtain ⟨rounds, repeated⟩ := rounds
    obtain ⟨ended, pairs⟩ := repeated.pairs
    rcases pairs.consecutive.elim with ⟨row, rfl, -⟩ | ⟨cause, rfl⟩
    · exact ⟨_, .sepBy first pairs⟩
    · exact ⟨_, .sepByPairFaults first pairs⟩

/-- A separated list and its expansion end alike, but for the lists of the pairs. -/
theorem sepBy_parse_spliced (rules : Rules) (value separator : Grammar) (input : Text) :
    SplicedEnd rules value separator input ((sepBy value separator).parse rules input)
      ((expansion value separator).parse rules input) := by
  by_cases finished : (sepBy value separator).parse rules input = .unfinished
  · have endless : (expansion value separator).parse rules input = .unfinished := by
      by_contra ended
      obtain ⟨outcome, derived⟩ := exists_derives_sepBy (derives_parse ended)
      rw [parse_eq_of_derives derived] at finished
      exact derived.ne_unfinished finished
    rw [finished, endless]
    exact .unfinished
  · obtain ⟨ended, derived, spliced⟩ := derives_expansion_of_sepBy (derives_parse finished)
    rw [parse_eq_of_derives derived]
    exact spliced

end Grammar
end Peg
