import Peg.Proofs.Derivation.Adequacy
import Peg.Proofs.LeftRecursion
import Peg.Proofs.Recognition

/-!
Without left recursion every parse comes to an end. What is left of the text
goes down first, and the rules entered at one place second: once a character has
been consumed everything ends as on a shorter text, and up to there a rule enters
only rules that do not lead back to it. The loops need neither, as they stop at a
round that consumes nothing.
-/
namespace Peg

open Outcome

def Grammar.Terminates (rules : Rules) (g : Grammar) (input : Text) : Prop :=
  ∃ outcome, Derives rules g input outcome

def Rules.TerminateBelow (rules : Rules) (input : Text) : Prop :=
  ∀ rest : Text, rest.length < input.length → ∀ g : Grammar, g.Terminates rules rest

theorem Rules.TerminateBelow.mono {rules : Rules} {input rest : Text}
    (below : rules.TerminateBelow input) (short : rest.length ≤ input.length) :
    rules.TerminateBelow rest :=
  fun later less => below later (less.trans_le short)

namespace Grammar

variable {rules : Rules} {g value separator : Grammar} {input : Text}

theorem Terminates.ends (terminates : g.Terminates rules input) :
    Derives rules g input (.done none) ∨
      (∃ found, Derives rules g input (.done (some found)) ∧
        found.parsed ++ found.rest = input) ∨
      ∃ cause, Derives rules g input (.fault cause) := by
  obtain ⟨outcome, derived⟩ := terminates
  rcases derived.splits.elim with ⟨_ | found, rfl, split⟩ | ⟨cause, rfl⟩
  · exact .inl derived
  · exact .inr (.inl ⟨found, derived, split found rfl⟩)
  · exact .inr (.inr ⟨cause, derived⟩)

theorem Terminates.after (below : rules.TerminateBelow input) {found : Match}
    (split : found.parsed ++ found.rest = input)
    (here : found.parsed = [] → g.Terminates rules input) : g.Terminates rules found.rest := by
  by_cases empty : found.parsed = []
  · have same : found.rest = input := by rwa [empty] at split
    rw [same]
    exact here empty
  · exact below _ (Match.rest_length_lt split empty) g

theorem exists_derivesRow (every : ∀ g : Grammar, g.Terminates rules input) (gs : List Grammar) :
    ∃ outcome, DerivesRow rules gs input outcome := by
  cases gs with
  | nil => exact ⟨_, .nil input⟩
  | cons g gs =>
    obtain ⟨outcome, derived⟩ := every (.sequence g gs)
    cases derived with
    | sequence parts | sequenceFails parts | sequenceFaults parts => exact ⟨_, parts⟩

theorem exists_derivesRow_cons {gs : List Grammar} (below : rules.TerminateBelow input)
    (first : g.Terminates rules input)
    (later : MayBeEmpty rules g → ∃ outcome, DerivesRow rules gs input outcome) :
    ∃ outcome, DerivesRow rules (g :: gs) input outcome := by
  rcases first.ends with head | ⟨found, head, split⟩ | ⟨cause, head⟩
  · exact ⟨_, .headFails head⟩
  · have behind : ∃ outcome, DerivesRow rules gs found.rest outcome := by
      by_cases empty : found.parsed = []
      · have same : found.rest = input := by rwa [empty] at split
        rw [same]
        exact later (head.mayBeEmpty rfl empty)
      · exact exists_derivesRow (below _ (Match.rest_length_lt split empty)) gs
    obtain ⟨outcome, tail⟩ := behind
    rcases tail.consecutive.elim with ⟨_ | row, rfl, -⟩ | ⟨cause, rfl⟩
    · exact ⟨_, .tailFails head tail⟩
    · exact ⟨_, .cons head tail⟩
    · exact ⟨_, .tailFaults head tail⟩
  · exact ⟨_, .headFaults head⟩

theorem exists_derivesChoice_cons {gs : List Grammar} (first : g.Terminates rules input)
    (later : ∃ outcome, DerivesChoice rules gs input outcome) :
    ∃ outcome, DerivesChoice rules (g :: gs) input outcome := by
  rcases first.ends with head | ⟨found, head, -⟩ | ⟨cause, head⟩
  · obtain ⟨outcome, tail⟩ := later
    exact ⟨outcome, .later head tail⟩
  · exact ⟨_, .here head⟩
  · exact ⟨_, .hereFaults head⟩

theorem exists_derivesRepetition (below : rules.TerminateBelow input)
    (inner : g.Terminates rules input) : ∃ outcome, DerivesRepetition rules g input outcome := by
  rcases inner.ends with stop | ⟨found, head, split⟩ | ⟨cause, stop⟩
  · exact ⟨_, .fails stop⟩
  · by_cases empty : found.parsed = []
    · exact ⟨_, .empty head empty⟩
    · obtain ⟨outcome, derived⟩ := below _ (Match.rest_length_lt split empty) (.many g)
      cases derived with
      | manyNone rounds | many rounds => exact ⟨_, .more head empty rounds⟩
      | manyFaults rounds => exact ⟨_, .moreFaults head empty rounds⟩
  · exact ⟨_, .faults stop⟩

theorem exists_derivesPairs {input : Text} (below : rules.TerminateBelow input)
    (item : value.Terminates rules input) (gap : separator.Terminates rules input) :
    ∃ outcome, DerivesPairs rules value separator input outcome := by
  rcases gap.ends with stop | ⟨before, between, left⟩ | ⟨cause, stop⟩
  · exact ⟨_, .separatorFails stop⟩
  · have behind : value.Terminates rules before.rest := .after below left fun _ => item
    rcases behind.ends with stop | ⟨found, derived, right⟩ | ⟨cause, stop⟩
    · exact ⟨_, .valueFails between stop⟩
    · by_cases empty : before.parsed = [] ∧ found.parsed = []
      · exact ⟨_, .bothEmpty between derived empty⟩
      · have shorter := Match.pair_rest_length_lt left right empty
        obtain ⟨outcome, later⟩ := exists_derivesPairs (below.mono shorter.le)
          (below _ shorter value) (below _ shorter separator)
        rcases later.consecutive.elim with ⟨row, rfl, -⟩ | ⟨cause, rfl⟩
        · exact ⟨_, .more between derived empty later⟩
        · exact ⟨_, .moreFaults between derived empty later⟩
    · exact ⟨_, .valueFaults between stop⟩
  · exact ⟨_, .separatorFaults stop⟩
termination_by input.length
decreasing_by exact shorter

theorem terminates_sepBy (below : rules.TerminateBelow input)
    (item : value.Terminates rules input)
    (gap : MayBeEmpty rules value → separator.Terminates rules input) :
    (sepBy value separator).Terminates rules input := by
  rcases item.ends with stop | ⟨found, first, split⟩ | ⟨cause, stop⟩
  · exact ⟨_, .sepByNone stop⟩
  · have behind : separator.Terminates rules found.rest :=
      .after below split fun empty => gap (first.mayBeEmpty rfl empty)
    have short : found.rest.length ≤ input.length := by
      rw [← split, List.length_append]
      omega
    obtain ⟨outcome, later⟩ := exists_derivesPairs (below.mono short)
      (.after below split fun _ => item) behind
    rcases later.consecutive.elim with ⟨row, rfl, -⟩ | ⟨cause, rfl⟩
    · exact ⟨_, .sepBy first later⟩
    · exact ⟨_, .sepByPairFaults first later⟩
  · exact ⟨_, .sepByFaults stop⟩

mutual

theorem terminates_of_entered (below : rules.TerminateBelow input) (g : Grammar)
    (entered : ∀ name, Enters rules g name → (rule name).Terminates rules input) :
    g.Terminates rules input := by
  match g with
  | literal token =>
    by_cases empty : token = []
    · subst empty
      exact ⟨_, .emptyToken input⟩
    · by_cases front : token <+: input
      · obtain ⟨rest, rfl⟩ := front
        exact ⟨_, .token token rest empty⟩
      · exact ⟨_, .tokenFails token input front⟩
  | char accepted =>
    match input with
    | [] => exact ⟨_, .charAtEnd accepted⟩
    | c :: rest =>
      cases test : accepted.accepts c with
      | true => exact ⟨_, .char accepted c rest test⟩
      | false => exact ⟨_, .charFails accepted c rest test⟩
  | whitespace => exact ⟨_, .whitespace_of input⟩
  | endOfInput =>
    match input with
    | [] => exact ⟨_, .endOfInput⟩
    | c :: rest => exact ⟨_, .endOfInputFails c rest⟩
  | sequence first others =>
    have head := terminates_of_entered below first fun name enters =>
      entered name (.sequence (.head enters))
    have tail (empty : MayBeEmpty rules first) := row_terminates_of_entered below others
      fun name enters => entered name (.sequence (.tail empty enters))
    obtain ⟨outcome, parts⟩ := exists_derivesRow_cons below head tail
    rcases parts.consecutive.elim with ⟨_ | row, rfl, -⟩ | ⟨cause, rfl⟩
    · exact ⟨_, .sequenceFails parts⟩
    · exact ⟨_, .sequence parts⟩
    · exact ⟨_, .sequenceFaults parts⟩
  | choice first others =>
    have head := terminates_of_entered below first fun name enters =>
      entered name (.choice List.mem_cons_self enters)
    have tail := choice_terminates_of_entered below others fun g member name enters =>
      entered name (.choice (List.mem_cons_of_mem _ member) enters)
    obtain ⟨outcome, candidates⟩ := exists_derivesChoice_cons head tail
    exact ⟨outcome, .choice candidates⟩
  | many inner =>
    have ends := terminates_of_entered below inner fun name enters => entered name (.many enters)
    obtain ⟨outcome, rounds⟩ := exists_derivesRepetition below ends
    rcases rounds.consecutive.elim with ⟨_ | ⟨found, row⟩, rfl, -⟩ | ⟨cause, rfl⟩
    · exact ⟨_, .manyNone rounds⟩
    · exact ⟨_, .many rounds⟩
    · exact ⟨_, .manyFaults rounds⟩
  | many1 inner =>
    have ends := terminates_of_entered below inner fun name enters => entered name (.many1 enters)
    obtain ⟨outcome, rounds⟩ := exists_derivesRepetition below ends
    rcases rounds.consecutive.elim with ⟨_ | ⟨found, row⟩, rfl, -⟩ | ⟨cause, rfl⟩
    · exact ⟨_, .many1Fails rounds⟩
    · exact ⟨_, .many1 rounds⟩
    · exact ⟨_, .many1Faults rounds⟩
  | sepBy value separator =>
    refine terminates_sepBy below ?_ fun empty => ?_
    · exact terminates_of_entered below value fun name enters => entered name (.value enters)
    · exact terminates_of_entered below separator fun name enters =>
        entered name (.separator empty enters)
  | capture inner =>
    have ends := terminates_of_entered below inner fun name enters => entered name (.capture enters)
    rcases ends.ends with derived | ⟨found, derived, -⟩ | ⟨cause, derived⟩
    · exact ⟨_, .captureFails derived⟩
    · exact ⟨_, .capture derived⟩
    · exact ⟨_, .captureFaults derived⟩
  | action inner act =>
    have ends := terminates_of_entered below inner fun name enters => entered name (.action enters)
    rcases ends.ends with derived | ⟨found, derived, -⟩ | ⟨cause, derived⟩
    · exact ⟨_, .actionFails derived⟩
    · cases acts : act found.tree with
      | ok tree => exact ⟨_, .action derived acts⟩
      | error cause => exact ⟨_, .actionFaults derived acts⟩
    · exact ⟨_, .actionInnerFaults derived⟩
  | optional inner =>
    have ends := terminates_of_entered below inner fun name enters => entered name (.optional enters)
    rcases ends.ends with derived | ⟨found, derived, -⟩ | ⟨cause, derived⟩
    · exact ⟨_, .optionalNone derived⟩
    · exact ⟨_, .optional derived⟩
    · exact ⟨_, .optionalFaults derived⟩
  | label shown inner =>
    obtain ⟨outcome, derived⟩ :=
      terminates_of_entered below inner fun name enters => entered name (.label enters)
    exact ⟨outcome, .label derived⟩
  | rule name => exact entered name (.rule name)
  | leaf parser => exact ⟨_, .leaf parser input⟩
  | wrapped shown inner =>
    obtain ⟨outcome, derived⟩ :=
      terminates_of_entered below inner fun name enters => entered name (.wrapped enters)
    exact ⟨outcome, .wrapped derived⟩

theorem row_terminates_of_entered (below : rules.TerminateBelow input) (gs : List Grammar)
    (entered : ∀ name, EntersRow rules gs name → (rule name).Terminates rules input) :
    ∃ outcome, DerivesRow rules gs input outcome := by
  match gs with
  | [] => exact ⟨_, .nil input⟩
  | g :: gs =>
    have head := terminates_of_entered below g fun name enters => entered name (.head enters)
    exact exists_derivesRow_cons below head fun empty =>
      row_terminates_of_entered below gs fun name enters => entered name (.tail empty enters)

theorem choice_terminates_of_entered (below : rules.TerminateBelow input) (gs : List Grammar)
    (entered : ∀ g ∈ gs, ∀ name, Enters rules g name → (rule name).Terminates rules input) :
    ∃ outcome, DerivesChoice rules gs input outcome := by
  match gs with
  | [] => exact ⟨_, .nil input⟩
  | g :: gs =>
    have head := terminates_of_entered below g (entered g List.mem_cons_self)
    exact exists_derivesChoice_cons head <|
      choice_terminates_of_entered below gs fun g member =>
        entered g (List.mem_cons_of_mem _ member)

end

theorem terminates (finite : rules.NotLeftRecursive) (g : Grammar) (input : Text) :
    g.Terminates rules input := by
  -- shorter texts first; on one text, rules in the order in which they are entered
  induction size : input.length using Nat.strong_induction_on generalizing g input with
  | _ n shorter =>
    subst size
    have below : rules.TerminateBelow input := fun rest less g => shorter _ less g rest rfl
    have entered (name : Text) : (rule name).Terminates rules input := by
      induction name using finite.induction with
      | step name ih =>
        cases known : rules.lookup name with
        | none => exact ⟨_, .unknownRule known⟩
        | some g =>
          obtain ⟨outcome, body⟩ :=
            terminates_of_entered below g fun called enters => ih called ⟨g, known, enters⟩
          exact ⟨outcome, .rule known body⟩
    exact terminates_of_entered below g fun name _ => entered name

/-- Where no action cuts a parse off either, there is an answer. -/
theorem exists_answer (finite : rules.NotLeftRecursive)
    (total : SameShape (fun act act' => act.IsTotal ∧ act'.IsTotal) g g)
    (totalRules : SameRules (fun act act' => act.IsTotal ∧ act'.IsTotal) rules rules)
    (input : Text) : ∃ result, Derives rules g input (.done result) := by
  obtain ⟨outcome, derived⟩ := terminates finite g input
  rcases derived.splits.elim with ⟨result, rfl, -⟩ | ⟨cause, rfl⟩
  · exact ⟨result, derived⟩
  · exact absurd (parse_eq_of_derives derived) (parse_ne_fault total totalRules input cause)

/-- If no rule can enter itself before it has consumed anything, every parse comes to an
end, with its rules no deeper than `Rules.depth` says: no call is left unfinished and no
loop runs out of rounds, and more depth makes no difference. -/
theorem parse_terminates (finite : rules.NotLeftRecursive) (g : Grammar) (input : Text) :
    ∃ outcome, Derives rules g input outcome ∧ outcome ≠ .unfinished ∧ outcome ≠ .breach ∧
      ∀ depth, rules.depth input ≤ depth → g.parser (rules.calls depth) input = outcome := by
  obtain ⟨outcome, derived⟩ := terminates finite g input
  refine ⟨outcome, derived, derived.ne_unfinished, derived.ne_breach, fun depth deep => ?_⟩
  rw [parser_eq_parse rules g deep]
  exact parse_eq_of_derives derived

def nested : Rules :=
  [(['l'], sequence whitespace [rule ['i']]),
    (['i'], choice (sequence (literal ['(']) [rule ['l'], literal [')']]) [letter])]

theorem nested_notLeftRecursive : nested.NotLeftRecursive := by
  refine Rules.notLeftRecursive_of_rank (fun name => if name = ['l'] then 1 else 0) ?_
  intro name called call
  obtain ⟨g, known, enters⟩ := call
  by_cases list : name = ['l']
  · subst list
    cases known
    cases enters with
    | sequence part =>
      cases part with
      | head enters => cases enters
      | tail _ part =>
        cases part with
        | head enters =>
          cases enters
          decide
        | tail _ part => cases part
  · by_cases item : name = ['i']
    · subst item
      cases known
      cases enters with
      | choice candidate enters =>
        rcases List.mem_pair.mp candidate with rfl | rfl
        · cases enters with
          | sequence part =>
            cases part with
            | head enters => cases enters
            | tail empty _ => cases empty
        · cases enters
    · have absent : name ∉ nested.map Prod.fst := by simp [nested, list, item]
      rw [Rules.lookup_eq_none absent] at known
      cases known

theorem nested_terminate :
    nested.NotLeftRecursive ∧
      ∃ outcome, Derives nested (rule ['l']) " ( x)".toList outcome ∧ outcome ≠ .unfinished ∧
        outcome ≠ .breach ∧ ∀ depth, nested.depth " ( x)".toList ≤ depth →
          (rule ['l']).parser (nested.calls depth) " ( x)".toList = outcome :=
  ⟨nested_notLeftRecursive, parse_terminates nested_notLeftRecursive _ _⟩

end Grammar
end Peg
