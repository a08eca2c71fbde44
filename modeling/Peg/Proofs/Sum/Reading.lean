import Peg.Proofs.Sum.Expression

/-!
Every text is summed as it is written. A number without a word is consumed all the same and
leaves no tree, so that in the list of trees the sign behind it, or the end, stands in its place;
no number is found there, and nothing further right is worked off. Up to that place
signs and numbers alternate.
-/
namespace Peg.Language.Sum

open Grammar Text

variable {rules : Rules} {input rest text later literal : Text} {total value first : Int}
variable {steps : List Step}

def word? (n : Int) : Option Int64 := if Fits n then some (.ofInt n) else none

theorem fits_iff {n : Int} : Fits n ↔ Int64.minValue.toInt ≤ n ∧ n ≤ Int64.maxValue.toInt := by
  rw [Int64.toInt_minValue, Int64.toInt_maxValue, Fits]
  omega

theorem Numeral.int64? (numeral : Numeral literal value) :
    Decimal.int64? literal = word? value := by
  cases numeral with
  | plain all =>
    obtain ⟨c, tail, rfl, digit⟩ := (Decimal.Unsigned.whole all).first_digit
    simp [Decimal.int64?, Decimal.splitSign_digit digit, all.isDigits, word?, fits_iff]
  | minus all => simp [Decimal.int64?, Decimal.splitSign, all.isDigits, word?, fits_iff]

theorem Numeral.row (rules : Rules) (numeral : Numeral literal value)
    (stops : ∀ c ∈ rest.head?, c.isDigit = false) :
    ∃ row, DerivesRow rules [optional (oneOf "-"), many1 digit] (literal ++ rest)
      (.done (some row)) ∧ row.flatMap (·.parsed) = literal := by
  have digits {run : Text} (all : Decimal.DigitRun run) :
      Derives rules (many1 digit) (run ++ rest) _ :=
    derives_many1_chars (.char _) all.2 stops all.1
  cases numeral with
  | plain all =>
    have sign := Decimal.derives_no_minus rules ((Decimal.Unsigned.whole all).not_minus rest)
    exact ⟨_, .cons sign (.cons (digits all) (.nil _)), by simp [Match.empty]⟩
  | minus all =>
    exact ⟨_, .cons (Decimal.derives_minus rules _) (.cons (digits all) (.nil _)), by simp⟩

theorem derives_integer (numeral : Numeral literal value)
    (stops : ∀ c ∈ rest.head?, c.isDigit = false) :
    Derives rules integer (literal ++ rest)
      (.done (some ⟨literal, rest, (word? value).map .int⟩)) := by
  obtain ⟨row, parts, parsed⟩ := numeral.row rules stops
  have read := numeral.int64?
  obtain ⟨c, tail, rfl, -⟩ := numeral.start
  refine .action (.capture_row parts parsed) ?_
  simp [Match.captured, Action.readInt, Action.onTree, Action.total, Tree.text?, read]

theorem derives_integer_fails
    (bare : ∀ literal value, Numeral literal value → ¬ literal <+: input) :
    Derives rules integer input (.done none) := by
  have fails {sign : Match}
      (signed : Derives rules (optional (oneOf "-")) input (.done (some sign)))
      (other : ∀ c ∈ sign.rest.head?, c.isDigit = false) :
      Derives rules integer input (.done none) :=
    .actionFails (.captureFails (.sequenceFails (.tailFails signed
      (.headFails (derives_many1_chars_fails (.char _) other)))))
  have single {c : Char} (digit : c.isDigit = true) : Decimal.DigitRun [c] :=
    ⟨List.cons_ne_nil c [], by simpa using digit⟩
  by_cases minus : '-' ∈ input.head?
  · obtain ⟨tail, rfl⟩ := List.head?_eq_some_iff.mp minus
    refine fails (Decimal.derives_minus rules tail) fun c here => Bool.eq_false_iff.mpr fun digit => ?_
    obtain ⟨behind, rfl⟩ := List.head?_eq_some_iff.mp here
    exact bare _ _ (.minus (single digit)) ⟨behind, rfl⟩
  · have signed := Decimal.derives_no_minus rules fun c here same => minus (same ▸ here)
    refine fails signed fun c here => Bool.eq_false_iff.mpr fun digit => ?_
    obtain ⟨behind, rfl⟩ := List.head?_eq_some_iff.mp here
    exact bare _ _ (.plain (single digit)) ⟨behind, rfl⟩

theorem operator_eq : operator = spaced "+-" := rfl

theorem Sign.symbol_mem (sign : Sign) : sign.symbol ∈ "+-".toList := by cases sign <;> decide

theorem Sign.symbol_clear (sign : Sign) : isBlank sign.symbol = false := by cases sign <;> decide

theorem exists_sign {c : Char} (member : c ∈ "+-".toList) : ∃ sign : Sign, sign.symbol = c := by
  rcases List.mem_pair.mp member with rfl | rfl
  · exact ⟨.plus, rfl⟩
  · exact ⟨.minus, rfl⟩

theorem Chain.stops (chain : Chain steps later) (stops : ∀ c ∈ rest.head?, c.isDigit = false) :
    ∀ c ∈ (later ++ rest).head?, c.isDigit = false := by
  cases chain with
  | nil => exact stops
  | cons head tail =>
    obtain @⟨sign, value, before, after, literal, left, right, operand⟩ := head
    simp only [List.append_assoc, List.cons_append]
    refine forall_head_append (fun c member => not_digit_of_blank (left c member)) ?_
    rintro c ⟨⟩
    cases sign <;> rfl

theorem Ends.pairs (ends : Ends rest) : DerivesPairs rules integer operator rest (.done []) := by
  rw [operator_eq]
  by_cases sign : ∃ c ∈ (trimStart rest).head?, c ∈ "+-".toList
  · obtain ⟨c, here, member⟩ := sign
    obtain ⟨tail, front⟩ := List.head?_eq_some_iff.mp here
    obtain ⟨sign, rfl⟩ := exists_sign member
    have left := blank_takeWhile rest
    have right := blank_takeWhile tail
    have split : rest.takeWhile isBlank ++ sign.symbol :: tail.takeWhile isBlank ++
        trimStart tail = rest := by
      rw [List.append_assoc, List.cons_append, blanks_append_trimStart tail, ← front,
        blanks_append_trimStart]
    have gap : Derives rules (spaced "+-") _ _ :=
      derives_spaced left member sign.symbol_clear right (solid_trimStart tail)
    rw [split] at gap
    refine .valueFails gap (derives_integer_fails fun literal value numeral inside => ?_)
    obtain ⟨more, same⟩ := inside
    have group : Group ⟨sign, value⟩ _ := .intro left right numeral
    refine ends.group group ⟨more, ?_⟩
    rw [List.append_assoc, same, split]
  · refine .separatorFails (derives_spaced_fails fun c here member => ?_)
    exact sign ⟨c, here, member⟩

/-- The trees of a chain: one for every sign, and one for every number that has a word. -/
def trees : List Step → List Tree
  | [] => []
  | ⟨sign, value⟩ :: steps => .text [sign.symbol] :: ((word? value).map .int).toList ++ trees steps

theorem Chain.pairs (rules : Rules) (chain : Chain steps later) (ends : Ends rest) :
    ∃ row, DerivesPairs rules integer operator (later ++ rest) (.done row) ∧
      row.flatMap (·.parsed) = later ∧ row.filterMap (·.tree) = trees steps := by
  induction chain with
  | nil => exact ⟨[], ends.pairs, rfl, rfl⟩
  | @cons _ steps _ later head tail ih =>
    obtain ⟨row, pairs, parsed, same⟩ := ih
    obtain @⟨sign, value, before, after, literal, left, right, operand⟩ := head
    have gap : Derives rules operator
        (before ++ sign.symbol :: after ++ (literal ++ (later ++ rest))) _ :=
      derives_spaced left sign.symbol_mem sign.symbol_clear right (operand.solid _)
    have item : Derives rules integer (literal ++ (later ++ rest)) _ :=
      derives_integer operand (tail.stops ends.digit)
    have derived := DerivesPairs.more gap item (by simp) pairs
    rw [List.append_assoc, List.append_assoc]
    refine ⟨_, derived, by simp [parsed], ?_⟩
    rw [Match.trees_cons, Match.trees_cons, same]
    rfl

theorem Longest.listed (longest : Longest input first steps text rest) :
    Derives rules (sepBy integer operator) input (.done (some
      ⟨text, rest, some (.list (((word? first).map .int).toList ++ trees steps))⟩)) := by
  have ends := longest.ends
  obtain @⟨literal, later, head, chain⟩ := longest.written
  obtain rfl := longest.split
  obtain ⟨row, pairs, parsed, same⟩ := chain.pairs rules ends
  have item : Derives rules integer (literal ++ (later ++ rest)) _ :=
    derives_integer head (chain.stops ends.digit)
  have derived := Derives.sepBy item pairs
  have consecutive : Match.Consecutive (later ++ rest) row := pairs.consecutive
  rw [Match.joined, List.flatMap_cons, parsed, Match.after, consecutive.after_eq parsed,
    Match.trees_cons, same] at derived
  rwa [List.append_assoc]

theorem addChecked_word (left : Fits total) (right : Fits value) :
    Tree.addChecked (.ofInt total) (.ofInt value) =
      if Fits (total + value) then .ok (.ofInt (total + value)) else .error .addOverflow := by
  simp only [Tree.addChecked, Int64.toInt_ofInt_of_le left.1 left.2,
    Int64.toInt_ofInt_of_le right.1 right.2, fits_iff]

theorem subtractChecked_word (left : Fits total) (right : Fits value) :
    Tree.subtractChecked (.ofInt total) (.ofInt value) =
      if Fits (total - value) then .ok (.ofInt (total - value)) else .error .subtractOverflow := by
  simp only [Tree.subtractChecked, Int64.toInt_ofInt_of_le left.1 left.2,
    Int64.toInt_ofInt_of_le right.1 right.2, fits_iff]

theorem applyOperator_word (sign : Sign) (left : Fits total) (right : Fits value) :
    applyOperator [sign.symbol] (.ofInt total) (.ofInt value) =
      if Fits (sign.result total value) then .ok (some (.ofInt (sign.result total value)))
      else .error sign.overflow := by
  cases sign with
  | plus =>
    calc applyOperator ['+'] (.ofInt total) (.ofInt value)
        = (Tree.addChecked (.ofInt total) (.ofInt value)).map some := rfl
      _ = _ := by
        rw [addChecked_word left right, apply_ite (Except.map some)]
        rfl
  | minus =>
    calc applyOperator ['-'] (.ofInt total) (.ofInt value)
        = (Tree.subtractChecked (.ofInt total) (.ofInt value)).map some := rfl
      _ = _ := by
        rw [subtractChecked_word left right, apply_ite (Except.map some)]
        rfl

theorem trees_start (steps : List Step) :
    trees steps = [] ∨ ∃ piece later, trees steps = Tree.text piece :: later := by
  cases steps with
  | nil => exact .inl rfl
  | cons step steps => exact .inr ⟨_, _, rfl⟩

theorem foldPairs_trees (fits : Fits total) (steps : List Step) :
    Tree.foldPairs Tree.int? applyOperator (.ofInt total) (trees steps) =
      (reckonFrom total steps).map (·.map Int64.ofInt) := by
  induction steps generalizing total with
  | nil => rfl
  | cons step steps ih =>
    obtain ⟨sign, value⟩ := step
    by_cases small : Fits value
    · have applied := applyOperator_word sign fits small
      by_cases next : Fits (sign.result total value)
      · rw [if_pos next] at applied
        simp [trees, word?, small, Tree.foldPairs, Tree.int?, Tree.text?, applied, reckonFrom,
          next, ih next]
      · rw [if_neg next] at applied
        simp [trees, word?, small, Tree.foldPairs, Tree.int?, Tree.text?, applied, reckonFrom,
          next, Except.map]
    · have gap : trees (⟨sign, value⟩ :: steps) = .text [sign.symbol] :: trees steps := by
        simp [trees, word?, small]
      rw [gap, Tree.foldPairs_gap (trees_start steps) fun _ => rfl, reckonFrom, if_pos small]
      rfl

theorem total_trees (first : Int) (steps : List Step) :
    Sum.total (some (.list (((word? first).map .int).toList ++ trees steps))) =
      (reckon first steps).map (·.map fun n => .int (.ofInt n)) := by
  by_cases fits : Fits first
  · rw [word?, if_pos fits, reckon, if_pos fits]
    calc Sum.total (some (.list (.int (.ofInt first) :: trees steps)))
        = (Tree.foldPairs Tree.int? applyOperator (.ofInt first) (trees steps)).map
            (·.map Tree.int) := rfl
      _ = ((reckonFrom first steps).map (·.map Int64.ofInt)).map (·.map Tree.int) := by
          rw [foldPairs_trees fits]
      _ = (reckonFrom first steps).map (·.map fun n => Tree.int (.ofInt n)) := by
          cases reckonFrom first steps with
          | error cause => rfl
          | ok result => cases result <;> rfl
  · rw [word?, if_neg fits, reckon, if_neg fits]
    rcases trees_start steps with empty | ⟨piece, later, start⟩
    · rw [empty]
      rfl
    · rw [start]
      rfl

theorem Summed.derives {outcome : Outcome (Option Match)} (summed : Summed input outcome) :
    Derives rules sum input outcome := by
  cases summed with
  | nothing bare => exact .action (.sepByNone (derives_integer_fails bare)) rfl
  | @total first steps text rest value longest reckoned =>
    refine .action longest.listed ?_
    rw [total_trees, reckoned]
    rfl
  | @overflow first steps text rest cause longest reckoned =>
    refine .actionFaults longest.listed ?_
    rw [total_trees, reckoned]
    rfl

/-- A sum always has an answer or breaks off, and which of the two, and with what, is told by
the longest sum at the front of the text. -/
theorem parse_eq_iff_summed (rules : Rules) (input : Text) :
    sum.parse rules input ≠ .done none ∧
      (∀ outcome, sum.parse rules input = outcome ↔ Summed input outcome) ∧
      Sign.plus.overflow.message = "attempt to add with overflow" ∧
      Sign.minus.overflow.message = "attempt to subtract with overflow" := by
  obtain ⟨outcome, summed⟩ := exists_summed input
  have ran : sum.parse rules input = outcome := parse_eq_of_derives summed.derives
  refine ⟨fun failed => ?_, fun other => ⟨?_, fun known => parse_eq_of_derives known.derives⟩,
    rfl, rfl⟩
  · rw [ran] at failed
    cases failed
    cases summed
  · rintro rfl
    rwa [ran]

end Peg.Language.Sum
