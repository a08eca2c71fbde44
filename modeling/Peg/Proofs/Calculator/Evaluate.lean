import Peg.Proofs.Calculator.Values
import Peg.Proofs.Termination

/-!
The calculator on whole texts: it has an answer for each of them, and a value for
those that are an expression between blanks.
-/
namespace Peg.Language.Calculator

open Grammar Text

theorem operator_enters_nothing (symbols : String) (name : Text) :
    ¬ Enters rules (operator symbols) name := by
  intro enters
  cases enters with | action enters =>
  cases enters with | sequence parts =>
  cases parts with
  | head enters => cases enters
  | tail _ parts =>
    cases parts with
    | head enters => cases enters
    | tail empty _ => cases empty

theorem factor_enters_nothing (name : Text) : ¬ Enters rules factor name := by
  intro enters
  cases enters with | choice candidate enters =>
  rcases List.mem_pair.mp candidate with rfl | rfl
  · cases enters with | action enters =>
    cases enters with | capture enters =>
    cases enters with | sequence parts =>
    cases parts with
    | head enters =>
      cases enters with | many1 enters => cases enters
    | tail empty _ => cases empty
  · cases enters with | action enters =>
    cases enters with | sequence parts =>
    cases parts with
    | head enters =>
      cases enters with | action enters => cases enters
    | tail empty _ =>
      cases empty with | action _ empty => cases empty

theorem expr_enters_nothing (name : Text) : ¬ Enters rules expr name := by
  intro enters
  cases enters with | action enters =>
  cases enters with
  | value enters =>
    cases enters with | action enters =>
    cases enters with
    | value enters => exact factor_enters_nothing name enters
    | separator _ enters => exact operator_enters_nothing _ name enters
  | separator _ enters => exact operator_enters_nothing _ name enters

theorem rules_notLeftRecursive : rules.NotLeftRecursive := by
  refine Rules.notLeftRecursive_of_rank (fun _ => 0) ?_
  rintro name called ⟨g, known, enters⟩
  by_cases here : name = "expr".toList
  · subst here
    cases known
    exact absurd enters (expr_enters_nothing called)
  · rw [Rules.lookup_eq_none (by simpa [rules] using here)] at known
    cases known

theorem foldPairs_ends (total : Float) (trees : List Tree) :
    ∃ result, Tree.foldPairs Tree.float? applyOperator total trees = .ok result := by
  induction trees using List.twoStepInduction generalizing total with
  | nil => exact ⟨_, rfl⟩
  | singleton => exact ⟨_, rfl⟩
  | cons_cons operator value items ih _ =>
    simp only [Tree.foldPairs]
    split
    · split
      · exact ih _
      · exact ⟨_, rfl⟩
      · next fails =>
        cases fails
    · exact ⟨_, rfl⟩

theorem total_isTotal : Action.IsTotal total := by
  intro tree
  suffices ends : ∃ result, Tree.foldOperators Tree.float? applyOperator tree = .ok result by
    obtain ⟨result, ends⟩ := ends
    rw [total, ends]
    exact ⟨_, rfl⟩
  unfold Tree.foldOperators
  split
  · split
    · exact foldPairs_ends _ _
    · exact ⟨_, rfl⟩
  · exact ⟨_, rfl⟩

theorem expr_sameShape : SameShape (fun act act' => act.IsTotal ∧ act'.IsTotal) expr expr := by
  have quiet (f : Option Tree → Option Tree) := Action.total_isTotal f
  have token (s : String) :
      SameShape (fun act act' => act.IsTotal ∧ act'.IsTotal) (token s) (token s) := .literal _
  have operator (symbols : String) : SameShape (fun act act' => act.IsTotal ∧ act'.IsTotal)
      (operator symbols) (operator symbols) :=
    .action (.sequence .whitespace (.cons (.char _) (.cons .whitespace .nil))) ⟨quiet _, quiet _⟩
  have number : SameShape (fun act act' => act.IsTotal ∧ act'.IsTotal) number number := by
    refine .action (.capture (.sequence (.many1 (.char _)) (.cons (.optional ?_) .nil)))
      ⟨quiet _, quiet _⟩
    exact .sequence (token ".") (.cons (.many1 (.char _)) .nil)
  have group : SameShape (fun act act' => act.IsTotal ∧ act'.IsTotal) group group := by
    refine .action (.sequence (.action (token "(") ⟨quiet _, quiet _⟩) ?_) ⟨quiet _, quiet _⟩
    refine .cons .whitespace (.cons (.rule _) (.cons .whitespace (.cons ?_ .nil)))
    exact .action (token ")") ⟨quiet _, quiet _⟩
  have factor := SameShape.choice number (.cons group .nil)
  have term := SameShape.action (.sepBy factor (operator "*/")) ⟨total_isTotal, total_isTotal⟩
  exact .action (.sepBy term (operator "+-")) ⟨total_isTotal, total_isTotal⟩

theorem line_answers (input : Text) :
    ∃ result, Derives rules line input (.done result) := by
  have total : SameShape (fun act act' => act.IsTotal ∧ act'.IsTotal) line line :=
    .sequence .whitespace (.cons expr_sameShape (.cons .whitespace (.cons .endOfInput .nil)))
  exact exists_answer rules_notLeftRecursive total (.cons ⟨rfl, expr_sameShape⟩ .nil) input

theorem evaluate_of_derives {input : Text} {result : Option Match}
    (derived : Derives rules line input (.done result)) :
    evaluate input = ((result.bind (·.tree)).bind Tree.list?).bind fun items =>
      items.head?.bind Tree.float? := by
  rw [evaluate, parse_eq_of_derives derived]
  cases result <;> rfl

theorem line_valued {input : Text} {found : Match} {value : Float}
    (derived : Derives rules line input (.done (some found))) (known : evaluate input = some value) :
    ∃ before text after, Blank before ∧ Blank after ∧ Expr text value ∧
      input = before ++ text ++ after := by
  have splits := Outcome.splits_matched.mp derived.splits
  have answer := evaluate_of_derives derived
  obtain ⟨row, parts, rfl⟩ := derived.sequence_matched
  obtain ⟨left, _, rfl, blanks, parts⟩ := parts.cons_matched
  obtain ⟨body, _, rfl, inner, parts⟩ := parts.cons_matched
  obtain ⟨right, _, rfl, blanks', parts⟩ := parts.cons_matched
  obtain ⟨stop, _, rfl, ends, parts⟩ := parts.cons_matched
  obtain rfl := parts.nil_matched
  obtain ⟨before, -, noLeft⟩ := blanks.whitespace_matched
  obtain ⟨after, -, noRight⟩ := blanks'.whitespace_matched
  obtain rfl : stop = .empty [] := by
    generalize right.rest = rest at ends
    cases ends
    rfl
  have trees : [left, body, right, .empty []].filterMap (·.tree) = body.tree.toList := by
    simp only [Match.trees_cons, noLeft, noRight]
    simp [Match.empty]
  rw [Match.joined, trees] at answer
  rcases expr_valued left.rest body inner with missing | ⟨number, tree, means⟩
  · rw [known, missing] at answer
    cases answer
  · rw [known, tree] at answer
    obtain rfl : value = number := Option.some.inj answer
    refine ⟨left.parsed, body.parsed, right.parsed, before, after, means, ?_⟩
    simpa [Match.joined, Match.after, Match.empty] using splits.symm

theorem derives_line {before text after : Text} {value : Float} (left : Blank before)
    (right : Blank after) (sum : Expr text value) :
    Derives rules line (before ++ text ++ after) (.done (some
      ⟨before ++ text ++ after, [], some (.list [.float value])⟩)) := by
  have nothing : trimStart after = [] := List.dropWhile_eq_nil_iff.mpr right
  have follows : Follows [')'] after := by
    intro c here
    rw [nothing] at here
    cases here
  have operand := sum.operand
  have gap : Derives rules whitespace (before ++ (text ++ after)) _ :=
    .whitespace before _ left (operand.solid.append operand.nonempty _)
  have gap' : Derives rules whitespace (after ++ []) _ := .whitespace after [] right nofun
  rw [List.append_nil] at gap'
  have derived : Derives rules line _ _ :=
    .sequence (.cons gap (.cons (operand.reads after follows) (.cons gap' (.cons .endOfInput
      (.nil _)))))
  simpa [Match.joined, Match.after, Match.empty] using derived

/-- The calculator has an answer for every text. It has a value for an expression between
blanks, the one that is worked out from left to right, and for no other text. -/
theorem evaluate_eq_some_iff (input : Text) (value : Float) :
    (∃ result, line.parse rules input = .done result) ∧
      (evaluate input = some value ↔ ∃ before text after, Blank before ∧ Blank after ∧
        Expr text value ∧ input = before ++ text ++ after) := by
  obtain ⟨result, derived⟩ := line_answers input
  refine ⟨⟨result, parse_eq_of_derives derived⟩, fun known => ?_, ?_⟩
  · cases result with
    | none =>
      have answer := evaluate_of_derives derived
      rw [known] at answer
      cases answer
    | some found => exact line_valued derived known
  · rintro ⟨before, text, after, left, right, sum, rfl⟩
    exact evaluate_of_derives (derives_line left right sum)

end Peg.Language.Calculator
