import Mathlib.Logic.Relation
import Peg.Proofs.Json.Acceptance
import Peg.Proofs.Termination

/-!
Reading a document comes to an end. The calls of a reader are stated here without limits on their
depth or on the rounds of a loop, so that a text has an answer if and only if the tree of calls for
it is finite. Each token and each value takes a character at least, the loops and the calls inside
an array or an object go on behind it, and so every text has one answer. It is the one that a reader
with limits gives, since no limit is reached.
-/
namespace Peg.Language.Json

open Text Grammar

def simpleValue (input : Text) : Option (Json × Text) :=
  (stringValue input).map (fun (text, rest) => (string text, rest)) <|>
    numberValue input <|> boolValue input <|> nullValue input

mutual

/-- The loop over the elements of an array. It goes on behind a comma. -/
inductive ElementsRun : Text → List Json → Text → Prop
  | stop {input} (missing : ValueRun input none) : ElementsRun input [] input
  | last {input item rest} (found : ValueRun input (some (item, rest)))
      (noComma : punct "," rest = none) : ElementsRun input [item] rest
  | next {input item behind start items rest} (found : ValueRun input (some (item, behind)))
      (comma : punct "," behind = some start) (later : ElementsRun start items rest) :
      ElementsRun input (item :: items) rest

inductive ArrayRun : Text → Option (Json × Text) → Prop
  | unopened {input} (missing : punct "[" input = none) : ArrayRun input none
  | opened {input start items behind} (opening : punct "[" input = some start)
      (loop : ElementsRun start items behind) :
      ArrayRun input ((punct "]" behind).map fun rest => (array items, rest))

/-- The loop over the members of an object, of which some came `before`. A key without a colon and
a value breaks it off. -/
inductive MembersRun :
    (before : List (Text × Json)) → Text → Option (List (Text × Json) × Text) → Prop
  | stop {before input} (missing : stringValue input = none) :
      MembersRun before input (some (before, input))
  | noColon {before input key colon} (name : stringValue input = some (key, colon))
      (missing : punct ":" colon = none) : MembersRun before input none
  | noValue {before input key colon item} (name : stringValue input = some (key, colon))
      (gap : punct ":" colon = some item) (missing : ValueRun item none) :
      MembersRun before input none
  | last {before input key colon item json rest} (name : stringValue input = some (key, colon))
      (gap : punct ":" colon = some item) (found : ValueRun item (some (json, rest)))
      (noComma : punct "," rest = none) :
      MembersRun before input (some (insertMember key json before, rest))
  | next {before input key colon item json behind start answer}
      (name : stringValue input = some (key, colon)) (gap : punct ":" colon = some item)
      (found : ValueRun item (some (json, behind))) (comma : punct "," behind = some start)
      (later : MembersRun (insertMember key json before) start answer) :
      MembersRun before input answer

inductive ObjectRun : Text → Option (Json × Text) → Prop
  | unopened {input} (missing : punct "\x7b" input = none) : ObjectRun input none
  | broken {input start} (opening : punct "\x7b" input = some start)
      (loop : MembersRun [] start none) : ObjectRun input none
  | opened {input start members behind} (opening : punct "\x7b" input = some start)
      (loop : MembersRun [] start (some (members, behind))) :
      ObjectRun input ((punct "\x7d" behind).map fun rest => (object members, rest))

inductive ChoiceRun : (simple : Text → Option (Json × Text)) → Text → Option (Json × Text) → Prop
  | object {simple input found} (here : ObjectRun input (some found)) :
      ChoiceRun simple input (some found)
  | array {simple input found} (noObject : ObjectRun input none)
      (here : ArrayRun input (some found)) : ChoiceRun simple input (some found)
  | simple {simple input} (noObject : ObjectRun input none) (noArray : ArrayRun input none) :
      ChoiceRun simple input (simple input)

inductive ValueRun : Text → Option (Json × Text) → Prop
  | intro {input answer} (chosen : ChoiceRun simpleValue (trimStart input) answer) :
      ValueRun input answer

end

def RootRun (input : Text) (answer : Option (Json × Text)) : Prop :=
  ChoiceRun nullValue (trimStart input) answer

/-- A round of the loop over elements, from `input` to what it leaves. A comma tells whether there
is another one. -/
inductive ElementsRound : Text → Text → (again : Bool) → Prop
  | last {input item rest} (found : ValueRun input (some (item, rest)))
      (noComma : punct "," rest = none) : ElementsRound input rest false
  | next {input item behind start} (found : ValueRun input (some (item, behind)))
      (comma : punct "," behind = some start) : ElementsRound input start true

def AsksMember (input item : Text) : Prop :=
  ∃ key colon, stringValue input = some (key, colon) ∧ punct ":" colon = some item

inductive MembersRound : Text → Text → (again : Bool) → Prop
  | last {input item json rest} (asks : AsksMember input item)
      (found : ValueRun item (some (json, rest))) (noComma : punct "," rest = none) :
      MembersRound input rest false
  | next {input item json behind start} (asks : AsksMember input item)
      (found : ValueRun item (some (json, behind))) (comma : punct "," behind = some start) :
      MembersRound input start true

/-- Reading an array or an object at `input` asks for a value at `text` in some round. -/
inductive Asks (input : Text) : (text : Text) → Prop
  | element {start text} (opening : punct "[" input = some start)
      (rounds : Relation.ReflTransGen (ElementsRound · · true) start text) : Asks input text
  | member {start head text} (opening : punct "\x7b" input = some start)
      (rounds : Relation.ReflTransGen (MembersRound · · true) start head)
      (value : AsksMember head text) : Asks input text

/-- What is left of a text when at least one character is taken off its front. -/
structure ProperEnd (rest input : Text) : Prop where
  suffix : rest <:+ input
  shorter : rest.length < input.length

def Progresses {α : Type} (read : Text → Option (α × Text)) : Prop :=
  ∀ input found rest, read input = some (found, rest) → ProperEnd rest input

section

variable {input behind rest : Text}

theorem ProperEnd.trans (last : ProperEnd rest behind) (first : ProperEnd behind input) :
    ProperEnd rest input :=
  ⟨last.suffix.trans first.suffix, last.shorter.trans first.shorter⟩

theorem ProperEnd.of_append {front : Text} (nonempty : front ≠ []) (rest : Text) :
    ProperEnd rest (front ++ rest) := by
  refine ⟨List.suffix_append front rest, ?_⟩
  have some := List.length_pos_iff.mpr nonempty
  rw [List.length_append]
  omega

theorem ProperEnd.of_trimStart (proper : ProperEnd rest (trimStart input)) :
    ProperEnd rest input :=
  ⟨proper.suffix.trans (trimStart_suffix input),
    proper.shorter.trans_le (trimStart_length_le input)⟩

theorem punct_progresses {symbol : String} (nonempty : symbol.toList ≠ [])
    (found : punct symbol input = some rest) : ProperEnd rest input := by
  rw [punct_eq nonempty] at found
  obtain ⟨tail, front, rfl⟩ := Option.map_eq_some_iff.mp found
  apply ProperEnd.of_trimStart
  rw [← after?_eq_some_iff.mp front]
  have proper := ProperEnd.of_append nonempty tail
  exact ⟨(trimStart_suffix tail).trans proper.suffix,
    (trimStart_length_le tail).trans_lt proper.shorter⟩

theorem stringValue_progresses : Progresses stringValue := by
  intro input content rest found
  obtain ⟨-, front⟩ := stringValue_split found
  apply ProperEnd.of_trimStart
  rw [front]
  simpa using ProperEnd.of_append (List.cons_ne_nil '"' (content ++ ['"'])) rest

theorem AsksMember.properEnd {item : Text} (asks : AsksMember input item) :
    ProperEnd item input := by
  obtain ⟨key, colon, name, gap⟩ := asks
  exact (punct_progresses (by decide) gap).trans (stringValue_progresses _ _ _ name)

theorem WrittenValue.progresses {read : Text → Option (Json × Text)} (written : WrittenValue read) :
    Progresses read := by
  intro input json rest found
  obtain ⟨document, before, text, after, -, lenient, -, -, rfl⟩ := written input json rest found
  obtain ⟨c, tail, rfl, -⟩ := lenient.first
  exact ProperEnd.of_append (by simp) rest

end

/-- On texts shorter than `bound`, a reader gives the answers of the calls. -/
def AnswersBelow (value : Text → Option (Json × Text)) (bound : Nat) : Prop :=
  ∀ input, input.length < bound → ∀ answer, ValueRun input answer ↔ value input = answer

section

variable {value : Text → Option (Json × Text)} {bound limit : Nat} {input rest : Text}

theorem ElementsRun.elements_eq (inner : AnswersBelow value bound) (progress : Progresses value)
    {items : List Json} (run : ElementsRun input items rest) (short : input.length < bound)
    (enough : input.length < limit) : elements value limit input = (items, rest) := by
  induction limit generalizing input items with
  | zero => exact absurd enough (Nat.not_lt_zero _)
  | succ limit ih =>
    have only {answer} (run : ValueRun input answer) : value input = answer :=
      (inner input short answer).mp run
    rw [elements]
    cases run with
    | stop missing => rw [only missing]
    | last found noComma => simp only [only found, noComma]
    | next found comma later =>
      have proper := (punct_progresses (by decide) comma).trans (progress _ _ _ (only found))
      have less := proper.shorter
      simp only [only found, comma, ih later (by omega) (by omega)]

theorem elements_run (inner : AnswersBelow value bound) (progress : Progresses value)
    (short : input.length < bound) (enough : input.length < limit) :
    ElementsRun input (elements value limit input).1 (elements value limit input).2 := by
  induction limit generalizing input with
  | zero => exact absurd enough (Nat.not_lt_zero _)
  | succ limit ih =>
    have here := inner input short
    rw [elements]
    cases found : value input with
    | none => exact .stop ((here none).mpr found)
    | some pair =>
      obtain ⟨item, behind⟩ := pair
      have read := (here _).mpr found
      cases comma : punct "," behind with
      | none =>
        simp only [comma]
        exact .last read comma
      | some start =>
        have proper := (punct_progresses (by decide) comma).trans (progress _ _ _ found)
        have less := proper.shorter
        simp only [comma]
        exact .next read comma (ih (by omega) (by omega))

theorem arrayValue_opened {start behind : Text} {items : List Json}
    (opening : punct "[" input = some start)
    (loop : elements value (start.length + 1) start = (items, behind)) :
    arrayValue value input = (punct "]" behind).map fun rest => (array items, rest) := by
  simp only [arrayValue, opening, loop, Option.bind_eq_bind, Option.bind_some]
  cases punct "]" behind <;> rfl

theorem arrayRun_iff (inner : AnswersBelow value bound) (progress : Progresses value)
    (short : input.length ≤ bound) {answer : Option (Json × Text)} :
    ArrayRun input answer ↔ arrayValue value input = answer := by
  have small {start} (opening : punct "[" input = some start) : start.length < bound :=
    (punct_progresses (by decide) opening).shorter.trans_le short
  constructor
  · intro run
    cases run with
    | unopened missing => simp [arrayValue, missing]
    | opened opening run =>
      exact arrayValue_opened opening
        (run.elements_eq inner progress (small opening) (Nat.lt_succ_self _))
  · rintro rfl
    cases opening : punct "[" input with
    | none => simpa [arrayValue, opening] using ArrayRun.unopened opening
    | some start =>
      rw [arrayValue_opened opening rfl]
      exact .opened opening (elements_run inner progress (small opening) (Nat.lt_succ_self _))

theorem MembersRun.members_eq (inner : AnswersBelow value bound) (progress : Progresses value)
    {before : List (Text × Json)} {answer : Option (List (Text × Json) × Text)}
    (run : MembersRun before input answer) (short : input.length < bound)
    (enough : input.length < limit) : members value limit before input = answer := by
  induction limit generalizing input before answer with
  | zero => exact absurd enough (Nat.not_lt_zero _)
  | succ limit ih =>
    have only {item answer} (asks : AsksMember input item) (run : ValueRun item answer) :
        value item = answer :=
      (inner item (asks.properEnd.shorter.trans short) answer).mp run
    rw [members]
    cases run with
    | stop missing => rw [missing]
    | noColon name missing => simp only [name, missing, Option.bind_eq_bind, Option.bind_none]
    | noValue name gap missing =>
      simp only [name, gap, only ⟨_, _, name, gap⟩ missing, Option.bind_eq_bind, Option.bind_some,
        Option.bind_none]
    | last name gap found noComma =>
      simp only [name, gap, only ⟨_, _, name, gap⟩ found, noComma, Option.bind_eq_bind,
        Option.bind_some]
      rfl
    | next name gap found comma later =>
      have asks : AsksMember input _ := ⟨_, _, name, gap⟩
      have read := only asks found
      have proper := (punct_progresses (by decide) comma).trans (progress _ _ _ read)
      have less := (proper.trans asks.properEnd).shorter
      simp only [name, gap, read, comma, Option.bind_eq_bind, Option.bind_some]
      exact ih later (by omega) (by omega)

theorem members_run (inner : AnswersBelow value bound) (progress : Progresses value)
    (before : List (Text × Json)) (short : input.length < bound) (enough : input.length < limit) :
    MembersRun before input (members value limit before input) := by
  induction limit generalizing input before with
  | zero => exact absurd enough (Nat.not_lt_zero _)
  | succ limit ih =>
    rw [members]
    cases name : stringValue input with
    | none => exact .stop name
    | some pair =>
      obtain ⟨key, colon⟩ := pair
      cases gap : punct ":" colon with
      | none =>
        simp only [gap, Option.bind_eq_bind, Option.bind_none]
        exact .noColon name gap
      | some item =>
        have asks : AsksMember input item := ⟨_, _, name, gap⟩
        have here := inner item (asks.properEnd.shorter.trans short)
        cases found : value item with
        | none =>
          simp only [gap, found, Option.bind_eq_bind, Option.bind_some, Option.bind_none]
          exact .noValue name gap ((here none).mpr found)
        | some pair =>
          obtain ⟨json, behind⟩ := pair
          have read := (here _).mpr found
          cases comma : punct "," behind with
          | none =>
            simp only [gap, found, comma, Option.bind_eq_bind, Option.bind_some]
            exact .last name gap read comma
          | some start =>
            have proper := (punct_progresses (by decide) comma).trans (progress _ _ _ found)
            have less := (proper.trans asks.properEnd).shorter
            simp only [gap, found, comma, Option.bind_eq_bind, Option.bind_some]
            exact .next name gap read comma (ih _ (by omega) (by omega))

theorem objectValue_opened {start behind : Text} {found : List (Text × Json)}
    (opening : punct "\x7b" input = some start)
    (loop : members value (start.length + 1) [] start = some (found, behind)) :
    objectValue value input = (punct "\x7d" behind).map fun rest => (object found, rest) := by
  simp only [objectValue, opening, loop, Option.bind_eq_bind, Option.bind_some]
  cases punct "\x7d" behind <;> rfl

theorem objectRun_iff (inner : AnswersBelow value bound) (progress : Progresses value)
    (short : input.length ≤ bound) {answer : Option (Json × Text)} :
    ObjectRun input answer ↔ objectValue value input = answer := by
  have small {start} (opening : punct "\x7b" input = some start) : start.length < bound :=
    (punct_progresses (by decide) opening).shorter.trans_le short
  constructor
  · intro run
    cases run with
    | unopened missing => simp [objectValue, missing]
    | broken opening run =>
      have broken := run.members_eq inner progress (small opening) (Nat.lt_succ_self _)
      simp [objectValue, opening, broken]
    | opened opening run =>
      exact objectValue_opened opening
        (run.members_eq inner progress (small opening) (Nat.lt_succ_self _))
  · rintro rfl
    cases opening : punct "\x7b" input with
    | none => simpa [objectValue, opening] using ObjectRun.unopened opening
    | some start =>
      have run := members_run inner progress [] (small opening) (Nat.lt_succ_self _)
      cases found : members value (start.length + 1) [] start with
      | none => simpa [objectValue, opening, found] using ObjectRun.broken opening (found ▸ run)
      | some pair =>
        obtain ⟨pairs, behind⟩ := pair
        rw [objectValue_opened opening found]
        exact .opened opening (found ▸ run)

theorem choiceRun_iff (inner : AnswersBelow value bound) (progress : Progresses value)
    (short : input.length ≤ bound) {simple : Text → Option (Json × Text)}
    {answer : Option (Json × Text)} :
    ChoiceRun simple input answer ↔
      (objectValue value input <|> arrayValue value input <|> simple input) = answer := by
  have object {answer} : ObjectRun input answer ↔ objectValue value input = answer :=
    objectRun_iff inner progress short
  have array {answer} : ArrayRun input answer ↔ arrayValue value input = answer :=
    arrayRun_iff inner progress short
  constructor
  · intro run
    cases run with
    | object here => rw [object.mp here]; rfl
    | array noObject here => rw [object.mp noObject, array.mp here]; rfl
    | simple noObject noArray => rw [object.mp noObject, array.mp noArray]; rfl
  · rintro rfl
    cases here : objectValue value input with
    | some found => exact .object (object.mpr here)
    | none =>
      cases there : arrayValue value input with
      | some found => exact .array (object.mpr here) (array.mpr there)
      | none => exact .simple (object.mpr here) (array.mpr there)

end

theorem value_progresses (depth : Nat) : Progresses (value depth) :=
  WrittenValue.progresses (value_written depth)

theorem value_answersBelow (depth : Nat) : AnswersBelow (value depth) depth := by
  induction depth with
  | zero => exact fun _ short => absurd short (Nat.not_lt_zero _)
  | succ depth ih =>
    intro input short answer
    have small : (trimStart input).length ≤ depth :=
      (trimStart_length_le input).trans (Nat.le_of_lt_succ short)
    have chosen : ChoiceRun simpleValue (trimStart input) answer ↔
        anyValue (value depth) input = answer :=
      choiceRun_iff ih (value_progresses depth) small
    constructor
    · rintro ⟨run⟩
      exact chosen.mp run
    · exact fun same => .intro (chosen.mpr same)

theorem rootRun_iff {input : Text} {answer : Option (Json × Text)} :
    RootRun input answer ↔ root input = answer :=
  choiceRun_iff (value_answersBelow _) (value_progresses _) (Nat.le_succ _)

theorem valueRun_iff {input : Text} {answer : Option (Json × Text)} :
    ValueRun input answer ↔ value (input.length + 1) input = answer :=
  value_answersBelow _ input (Nat.lt_succ_self _) answer

section

variable {input start text : Text}

theorem ValueRun.properEnd {json : Json} (run : ValueRun input (some (json, text))) :
    ProperEnd text input :=
  value_progresses _ _ _ _ (valueRun_iff.mp run)

theorem ElementsRound.properEnd {again : Bool} (round : ElementsRound input start again) :
    ProperEnd start input := by
  cases round with
  | last found => exact found.properEnd
  | next found comma => exact (punct_progresses (by decide) comma).trans found.properEnd

theorem MembersRound.properEnd {again : Bool} (round : MembersRound input start again) :
    ProperEnd start input := by
  cases round with
  | last asks found => exact found.properEnd.trans asks.properEnd
  | next asks found comma =>
    exact ((punct_progresses (by decide) comma).trans found.properEnd).trans asks.properEnd

theorem ProperEnd.rounds {round : Text → Text → Prop}
    (shortens : ∀ input start, round input start → ProperEnd start input)
    (rounds : Relation.ReflTransGen round start text) (opened : ProperEnd start input) :
    ProperEnd text input := by
  induction rounds with
  | refl => exact opened
  | tail _ next ih => exact (shortens _ _ next).trans ih

theorem Asks.properEnd (asks : Asks input text) : ProperEnd text input := by
  cases asks with
  | element opening rounds =>
    exact .rounds (fun _ _ => ElementsRound.properEnd) rounds (punct_progresses (by decide) opening)
  | member opening rounds value =>
    have head := ProperEnd.rounds (fun _ _ => MembersRound.properEnd) rounds
      (punct_progresses (by decide) opening)
    exact value.properEnd.trans head

end

def tokens (symbol : String) : List Grammar :=
  [mark symbol, stringToken, numberToken, boolToken, nullToken]

theorem tokens_sameShape (symbol : String) : ∀ g ∈ tokens symbol,
    SameShape (fun act act' => act.IsTotal ∧ act'.IsTotal) g g := by
  have quiet (f : Option Tree → Option Tree) := Action.total_isTotal f
  simp only [tokens, List.forall_mem_cons, List.not_mem_nil, false_implies, implies_true, and_true]
  refine ⟨?_, ?_, ?_, ?_, ?_⟩
  · exact .sequence .whitespace (.cons (.literal _) (.cons .whitespace .nil))
  · refine .sequence (.action (.literal _) ⟨quiet _, quiet _⟩) (.cons ?_ (.cons ?_ .nil))
    · exact .capture (.many (.char _))
    · exact .action (.literal _) ⟨quiet _, quiet _⟩
  · refine .capture (.sequence (.optional (.char _)) (.cons (.many1 (.char _)) (.cons ?_ .nil)))
    exact .optional (.sequence (.literal _) (.cons (.many1 (.char _)) .nil))
  · exact .choice (.literal _) (.cons (.literal _) .nil)
  · exact .literal _

theorem token_answers {symbol : String} {g : Grammar} (token : g ∈ tokens symbol) (input : Text) :
    ∃ result, g.parse [] input = .done result := by
  have finite : Rules.NotLeftRecursive [] :=
    Rules.notLeftRecursive_of_rank (fun _ => 0) fun _ _ ⟨_, known, _⟩ => nomatch known
  obtain ⟨result, derived⟩ := exists_answer finite (tokens_sameShape symbol g token) .nil input
  exact ⟨result, parse_eq_of_derives derived⟩

/-- Reading goes on behind what it has taken. A mark, a string, an array, an object and a value
leave a proper end of the text they are found in, a loop starts its next round at a proper end of
the last one, and values inside an array or an object are asked for at proper ends of it. So there
is one answer to each text, after finitely many calls, and a reader that goes deeper than the text
is long gives that answer. -/
theorem reading_progresses :
    (∀ (symbol : String) (input rest : Text), symbol ≠ "" → punct symbol input = some rest →
      ProperEnd rest input) ∧
    Progresses stringValue ∧
    (∀ depth, Progresses (arrayValue (value depth)) ∧ Progresses (objectValue (value depth)) ∧
      Progresses (value depth)) ∧
    (∀ input rest again, ElementsRound input rest again → ProperEnd rest input) ∧
    (∀ input rest again, MembersRound input rest again → ProperEnd rest input) ∧
    (∀ input text, Asks input text → ProperEnd text input) ∧
    (∀ symbol, ∀ g ∈ tokens symbol, ∀ input, ∃ result, g.parse [] input = .done result) ∧
    (∀ input, ∃ answer, ValueRun input answer ∧ (∀ other, ValueRun input other → other = answer) ∧
      ∀ depth, input.length < depth → value depth input = answer) ∧
    ∀ input, ∃ answer, RootRun input answer ∧ (∀ other, RootRun input other → other = answer) ∧
      parse input = (answer.map (·.1)).getD null := by
  refine ⟨?_, stringValue_progresses, ?_, fun _ _ _ => ElementsRound.properEnd,
    fun _ _ _ => MembersRound.properEnd, fun _ _ => Asks.properEnd,
    fun _ _ => token_answers, ?_, ?_⟩
  · intro symbol input rest nonempty
    apply punct_progresses
    simpa using nonempty
  · intro depth
    have inner := value_written depth
    exact ⟨(arrayValue_written inner).progresses, (objectValue_written inner).progresses,
      value_progresses depth⟩
  · intro input
    refine ⟨value (input.length + 1) input, valueRun_iff.mpr rfl, ?_, ?_⟩
    · exact fun other run => (valueRun_iff.mp run).symm
    · intro depth deep
      exact (value_answersBelow depth input deep _).mp (valueRun_iff.mpr rfl)
  · intro input
    exact ⟨root input, rootRun_iff.mpr rfl, fun other run => (rootRun_iff.mp run).symm, rfl⟩

theorem trailing_asks : Asks trailing [']'] ∧ ProperEnd [']'] trailing := by
  have null : ValueRun "null,]".toList (some (.null, ",]".toList)) :=
    valueRun_iff.mpr (anyValue_null rfl)
  have round : ElementsRound "null,]".toList [']'] true := .next null rfl
  have asks : Asks trailing [']'] := .element rfl (.single round)
  obtain ⟨-, -, -, -, -, behind, -⟩ := reading_progresses
  exact ⟨asks, behind _ _ asks⟩

end Peg.Language.Json
