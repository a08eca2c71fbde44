import Peg.Language.Sum
import Peg.Proofs.Decimal.Literal

/-!
Sums as they are written and what they come to, by a grammar and by exact arithmetic that say
nothing of parsers. A whole number comes first, then any number of signs with a whole number
behind each, with blanks on either side of a sign. Behind a number a minus is a
sign; behind a sign it is part of a number.
-/
namespace Peg.Language.Sum

open Text

inductive Numeral : Text → Int → Prop
  | plain {digits} (all : Decimal.DigitRun digits) : Numeral digits (Decimal.digitsValue digits)
  | minus {digits} (all : Decimal.DigitRun digits) :
      Numeral ('-' :: digits) (-Decimal.digitsValue digits)

inductive Sign where
  | plus
  | minus

/-- A number that is added to a total, or taken off it. -/
structure Step where
  sign : Sign
  value : Int

def Sign.symbol : Sign → Char
  | plus => '+'
  | minus => '-'

inductive Group : Step → Text → Prop
  | intro {sign value before after literal} (left : Blank before) (right : Blank after)
      (operand : Numeral literal value) :
      Group ⟨sign, value⟩ (before ++ sign.symbol :: after ++ literal)

inductive Chain : List Step → Text → Prop
  | nil : Chain [] []
  | cons {step steps text later} (head : Group step text) (tail : Chain steps later) :
      Chain (step :: steps) (text ++ later)

inductive Written : Int → List Step → Text → Prop
  | intro {first steps literal later} (head : Numeral literal first) (chain : Chain steps later) :
      Written first steps (literal ++ later)

/-- No sum at the front of the input is longer than `text`. -/
structure Longest (input : Text) (first : Int) (steps : List Step) (text rest : Text) : Prop where
  written : Written first steps text
  split : text ++ rest = input
  most : ∀ {first steps other}, Written first steps other → other <+: input →
    other.length ≤ text.length

def Fits (n : Int) : Prop := -2 ^ 63 ≤ n ∧ n < 2 ^ 63

instance (n : Int) : Decidable (Fits n) := inferInstanceAs (Decidable (_ ∧ _))

def Sign.result (total value : Int) : Sign → Int
  | plus => total + value
  | minus => total - value

def Sign.overflow : Sign → Fault
  | plus => .addOverflow
  | minus => .subtractOverflow

/-- The exact total, step by step from left to right. A number that does not fit leaves no
total, a total that does not fit is an overflow, and whichever comes first decides. -/
def reckonFrom (total : Int) : List Step → Except Fault (Option Int)
  | [] => .ok (some total)
  | ⟨sign, value⟩ :: steps =>
    if ¬ Fits value then .ok none
    else if Fits (sign.result total value) then reckonFrom (sign.result total value) steps
    else .error sign.overflow

def reckon (first : Int) (steps : List Step) : Except Fault (Option Int) :=
  if Fits first then reckonFrom first steps else .ok none

/-- What a sum at the front of a text comes to: nothing is read where no number stands, and
otherwise the longest sum there is decides. -/
inductive Summed (input : Text) : Outcome (Option Match) → Prop
  | nothing (bare : ∀ literal value, Numeral literal value → ¬ literal <+: input) :
      Summed input (.done (some (.empty input)))
  | total {first steps text rest value} (longest : Longest input first steps text rest)
      (reckoned : reckon first steps = .ok value) :
      Summed input (.done (some ⟨text, rest, value.map fun n => .int (.ofInt n)⟩))
  | overflow {first steps text rest cause} (longest : Longest input first steps text rest)
      (reckoned : reckon first steps = .error cause) : Summed input (.fault cause)

section

variable {input rest text later literal : Text} {first value : Int} {steps : List Step}
variable {step : Step} {c : Char}

theorem Numeral.start (numeral : Numeral literal value) :
    ∃ c tail, literal = c :: tail ∧ (c = '-' ∨ c.isDigit = true) := by
  cases numeral with
  | plain all => exact (Decimal.Signed.plain (.whole all)).first
  | minus all => exact (Decimal.Signed.minus (.whole all)).first

theorem Numeral.solid (numeral : Numeral literal value) (rest : Text) : Solid (literal ++ rest) := by
  cases numeral with
  | plain all => exact all.solid rest
  | minus all => exact solid_cons (by decide) _

theorem Numeral.snoc_digit (numeral : Numeral literal value) (digit : c.isDigit = true) :
    ∃ more, Numeral (literal ++ [c]) more := by
  have run {digits : Text} (all : Decimal.DigitRun digits) : Decimal.DigitRun (digits ++ [c]) := by
    refine ⟨by simp, fun d member => ?_⟩
    rcases List.mem_append.mp member with inside | last
    · exact all.2 d inside
    · rwa [List.mem_singleton.mp last]
  cases numeral with
  | plain all => exact ⟨_, .plain (run all)⟩
  | minus all => exact ⟨_, .minus (run all)⟩

theorem Group.snoc_digit (group : Group step text) (digit : c.isDigit = true) :
    ∃ more, Group more (text ++ [c]) := by
  obtain @⟨sign, value, before, after, literal, left, right, operand⟩ := group
  obtain ⟨more, operand⟩ := operand.snoc_digit digit
  have longer : Group ⟨sign, more⟩ (before ++ sign.symbol :: after ++ (literal ++ [c])) :=
    .intro left right operand
  rw [← List.append_assoc] at longer
  exact ⟨_, longer⟩

theorem Chain.snoc (chain : Chain steps later) (group : Group step text) :
    Chain (steps ++ [step]) (later ++ text) := by
  induction chain with
  | nil =>
    have single : Chain [step] (text ++ []) := .cons group .nil
    rwa [List.append_nil] at single
  | cons head _ ih =>
    rw [List.append_assoc]
    exact .cons head ih

theorem Chain.snoc_digit (chain : Chain steps later) (digit : c.isDigit = true) :
    later = [] ∨ ∃ more, Chain more (later ++ [c]) := by
  induction chain with
  | nil => exact .inl rfl
  | cons head tail ih =>
    right
    rcases ih with rfl | ⟨more, tail⟩
    · obtain ⟨step, head⟩ := head.snoc_digit digit
      exact ⟨[step], by simpa using Chain.cons head .nil⟩
    · rw [List.append_assoc]
      exact ⟨_, .cons head tail⟩

theorem Written.snoc (written : Written first steps text) {more : Text} (group : Group step more) :
    Written first (steps ++ [step]) (text ++ more) := by
  obtain ⟨head, chain⟩ := written
  rw [List.append_assoc]
  exact .intro head (chain.snoc group)

theorem Written.snoc_digit (written : Written first steps text) (digit : c.isDigit = true) :
    ∃ first steps, Written first steps (text ++ [c]) := by
  obtain @⟨literal, later, head, chain⟩ := written
  rw [List.append_assoc]
  rcases chain.snoc_digit digit with rfl | ⟨more, chain⟩
  · obtain ⟨value, head⟩ := head.snoc_digit digit
    exact ⟨value, [], by simpa using Written.intro head .nil⟩
  · exact ⟨first, more, .intro head chain⟩

theorem Group.ne_nil (group : Group step text) : text ≠ [] := by
  cases group
  simp

structure Ends (rest : Text) : Prop where
  digit : ∀ c ∈ rest.head?, c.isDigit = false
  group : ∀ {step text}, Group step text → ¬ text <+: rest

theorem Longest.ends (longest : Longest input first steps text rest) : Ends rest where
  digit c here := by
    obtain ⟨tail, rfl⟩ := List.head?_eq_some_iff.mp here
    refine Bool.eq_false_iff.mpr fun digit => ?_
    obtain ⟨_, _, written⟩ := longest.written.snoc_digit digit
    have front : text ++ [c] <+: input := ⟨tail, by simp [← longest.split]⟩
    exact absurd (longest.most written front) (by simp)
  group {step more} group inside := by
    obtain ⟨tail, rfl⟩ := inside
    have front : text ++ more <+: input := ⟨tail, by simp [← longest.split]⟩
    have short := longest.most (longest.written.snoc group) front
    rw [List.length_append] at short
    have some := List.length_pos_iff.mpr group.ne_nil
    omega

theorem exists_longest (numeral : Numeral literal value) (front : literal <+: input) :
    ∃ first steps text rest, Longest input first steps text rest := by
  have alone : Written value [] literal := by simpa using Written.intro numeral .nil
  obtain ⟨text, rest, split, ⟨first, steps, written⟩, most⟩ :=
    exists_longest_front (fun text => ∃ first steps, Written first steps text) ⟨_, _, alone⟩ front
  exact ⟨first, steps, text, rest, written, split, fun other inside => most _ ⟨_, _, other⟩ inside⟩

theorem exists_summed (input : Text) : ∃ outcome, Summed input outcome := by
  by_cases found : ∃ literal value, Numeral literal value ∧ literal <+: input
  · obtain ⟨literal, value, numeral, front⟩ := found
    obtain ⟨first, steps, text, rest, longest⟩ := exists_longest numeral front
    cases reckoned : reckon first steps with
    | ok value => exact ⟨_, .total longest reckoned⟩
    | error cause => exact ⟨_, .overflow longest reckoned⟩
  · exact ⟨_, .nothing fun literal value numeral front => found ⟨literal, value, numeral, front⟩⟩

end

end Peg.Language.Sum
