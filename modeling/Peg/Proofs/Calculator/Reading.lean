import Peg.Proofs.Calculator.Expression

/-!
Every expression is read to its end, with its value. A chain stops where no
operator of its set follows, so that what may stand behind an operand are the
operators of the chain and whatever may stand behind the chain.
-/
namespace Peg.Language.Calculator

open Grammar Text

variable {rules : Rules}

/-- After blanks the text is at its end or goes on with one of these characters. -/
def Follows (ends rest : Text) : Prop := ∀ c ∈ (trimStart rest).head?, c ∈ ends

/-- A text that a grammar reads whole, wherever one of the `ends` follows, and that starts
with no blank. -/
structure Operand (rules : Rules) (g : Grammar) (ends text : Text) (value : Float) : Prop where
  nonempty : text ≠ []
  solid : Solid text
  reads : ∀ rest, Follows ends rest →
    Derives rules g (text ++ rest) (.done (some ⟨text, rest, some (.float value)⟩))

theorem Follows.mono {ends wider rest : Text} (follows : Follows ends rest)
    (more : ∀ c ∈ ends, c ∈ wider) : Follows wider rest :=
  fun c here => more c (follows c here)

section

variable {g : Grammar} {symbols : String} {ends later : Text} {total result : Float}

theorem Chain.follows (clear : ∀ c ∈ symbols.toList, isBlank c = false)
    {operand : Text → Float → Prop} (chain : Chain operand symbols.toList total later result)
    {rest : Text} (follows : Follows ends rest) :
    Follows (symbols.toList ++ ends) (later ++ rest) := by
  cases chain with
  | nil => exact follows.mono fun c member => List.mem_append_right _ member
  | @cons _ before symbol after text value new later _ left member right item applied tail =>
    intro c here
    have solid : Solid (symbol :: after ++ (text ++ later) ++ rest) :=
      solid_cons (clear symbol member) _
    rw [List.append_assoc, List.append_assoc, trimStart_blank_append left, ← List.append_assoc,
      trimStart_of_solid solid] at here
    cases here
    exact List.mem_append_left _ member

theorem Chain.pairs (clear : ∀ c ∈ symbols.toList, isBlank c = false)
    (apart : ∀ c ∈ ends, c ∉ symbols.toList)
    (chain : Chain (Operand rules g (symbols.toList ++ ends)) symbols.toList total later result)
    {rest : Text} (follows : Follows ends rest) :
    ∃ row, DerivesPairs rules g (operator symbols) (later ++ rest) (.done row) ∧
      row.flatMap (·.parsed) = later ∧
      Tree.foldPairs Tree.float? applyOperator total (row.filterMap (·.tree)) =
        .ok (some result) := by
  induction chain with
  | nil total =>
    have stop : Derives rules (operator symbols) rest (.done none) :=
      derives_spaced_fails fun c here => apart c (follows c here)
    exact ⟨[], .separatorFails stop, rfl, rfl⟩
  | @cons total before symbol after text value new later result left member right item applied
      tail ih =>
    obtain ⟨row, pairs, parsed, folded⟩ := ih
    have solid : Solid (text ++ (later ++ rest)) := item.solid.append item.nonempty _
    have gap : Derives rules (operator symbols)
        (before ++ symbol :: after ++ (text ++ (later ++ rest))) _ :=
      derives_spaced left member (clear symbol member) right solid
    have value := item.reads (later ++ rest) (tail.follows clear follows)
    have derived := DerivesPairs.more gap value (by simp) pairs
    have same : before ++ symbol :: after ++ (text ++ later) ++ rest =
        before ++ symbol :: after ++ (text ++ (later ++ rest)) := by
      simp only [List.append_assoc]
    rw [same]
    refine ⟨_, derived, by simp [parsed], ?_⟩
    simp [Tree.foldPairs, Tree.float?, Tree.text?, applied, folded]

theorem total_list (start : Float) (trees : List Tree) :
    Calculator.total (some (.list (.float start :: trees))) =
      (Tree.foldPairs Tree.float? applyOperator start trees).map (·.map .float) := rfl

theorem Operand.of_chained (clear : ∀ c ∈ symbols.toList, isBlank c = false)
    (apart : ∀ c ∈ ends, c ∉ symbols.toList) {text : Text}
    (chained : Chained (Operand rules g (symbols.toList ++ ends)) symbols.toList text result) :
    Operand rules ((sepBy g (operator symbols)).action Calculator.total) ends text result := by
  obtain ⟨first, start, later, rfl, item, chain⟩ := chained
  refine ⟨by simp [item.nonempty], item.solid.append item.nonempty _, ?_⟩
  intro rest follows
  obtain ⟨row, pairs, parsed, folded⟩ := chain.pairs clear apart follows
  have value := item.reads (later ++ rest) (chain.follows clear follows)
  have left : Match.after (later ++ rest) row = rest := by
    have consecutive : Match.Consecutive (later ++ rest) row := pairs.consecutive
    exact consecutive.after_eq parsed
  have acts : Calculator.total (some (.list (.float start :: row.filterMap (·.tree)))) =
      .ok (some (.float result)) := by
    rw [total_list, folded]
    rfl
  have derived := Derives.action (.sepBy value pairs) acts
  rw [List.append_assoc]
  simpa [Match.joined, Match.after, parsed, left] using derived

end

theorem derives_number {text rest : Text} {value : Float} (literal : Decimal.Unsigned text)
    (takes : Decimal.Takes rules text rest) (read : Decimal.float? text = some value) :
    Derives rules number (text ++ rest) (.done (some ⟨text, rest, some (.float value)⟩)) := by
  obtain ⟨row, parts, parsed⟩ := takes
  obtain ⟨c, tail, rfl, -⟩ := literal.first_digit
  refine .action (.capture_row parts parsed) ?_
  simp [Match.captured, Action.readFloat, Action.onTree, Action.total, Tree.text?, read]

theorem derives_number_fails {rest : Text} (stops : ∀ c ∈ rest.head?, c.isDigit = false) :
    Derives rules number rest (.done none) :=
  .actionFails (.captureFails (.sequenceFails (.headFails (derives_many1_chars_fails (.char _) stops))))

theorem Follows.ends_literal {ends rest : Text} (follows : Follows ends rest)
    (apart : ∀ c ∈ ends, c.isDigit = false ∧ c ≠ '.') : Decimal.EndsLiteral rest := by
  intro c first
  rcases blank_or_head_trimStart first with blank | here
  · exact Decimal.not_literal_of_blank blank
  · exact apart c (follows c here)

theorem derives_group {before text after rest : Text} {value : Float} (left : Blank before)
    (inner : Operand Calculator.rules expr [')'] text value) (right : Blank after) :
    Derives Calculator.rules group ('(' :: before ++ text ++ after ++ [')'] ++ rest)
      (.done (some ⟨'(' :: before ++ text ++ after ++ [')'], rest, some (.float value)⟩)) := by
  have follows : Follows [')'] (after ++ ')' :: rest) := by
    intro c here
    rw [trimStart_blank_append right, trimStart_of_solid (solid_cons (by decide) rest)] at here
    cases here
    exact List.mem_singleton_self _
  have opening : Derives Calculator.rules (token "(").silent
      ('(' :: (before ++ (text ++ (after ++ ')' :: rest)))) _ :=
    derives_silent (List.cons_ne_nil '(' []) _
  have first : Derives Calculator.rules whitespace (before ++ (text ++ (after ++ ')' :: rest))) _ :=
    .whitespace before _ left (inner.solid.append inner.nonempty _)
  have body : Derives Calculator.rules (rule "expr".toList) (text ++ (after ++ ')' :: rest)) _ :=
    .rule rfl (inner.reads _ follows)
  have second : Derives Calculator.rules whitespace (after ++ ')' :: rest) _ :=
    .whitespace after (')' :: rest) right (solid_cons (by decide) rest)
  have closing : Derives Calculator.rules (token ")").silent (')' :: rest) _ :=
    derives_silent (List.cons_ne_nil ')' []) rest
  have acts : Action.first (some (.list [.float value])) = .ok (some (.float value)) := rfl
  have derived : Derives Calculator.rules group _ _ := .action (.sequence
    (.cons opening (.cons first (.cons body (.cons second (.cons closing (.nil _))))))) acts
  simpa [Match.joined, Match.after] using derived

def termEnds : Text := "+-".toList ++ [')']

def factorEnds : Text := "*/".toList ++ termEnds

theorem term_operand {text : Text} {value : Float}
    (chained : Chained (Operand Calculator.rules factor factorEnds) "*/".toList text value) :
    Operand Calculator.rules term termEnds text value := by
  have clear : ∀ c ∈ "*/".toList, isBlank c = false :=
    List.forall_mem_cons.mpr ⟨rfl, List.forall_mem_singleton.mpr rfl⟩
  exact Operand.of_chained clear (by simp [termEnds]) chained

theorem expr_operand {text : Text} {value : Float}
    (chained : Chained (Operand Calculator.rules term termEnds) "+-".toList text value) :
    Operand Calculator.rules expr [')'] text value := by
  have clear : ∀ c ∈ "+-".toList, isBlank c = false :=
    List.forall_mem_cons.mpr ⟨rfl, List.forall_mem_singleton.mpr rfl⟩
  exact Operand.of_chained clear (by simp) chained

mutual

theorem Factor.operand {text : Text} {value : Float} (single : Factor text value) :
    Operand Calculator.rules factor factorEnds text value := by
  match single with
  | .number numeral read =>
    obtain ⟨c, tail, same, digit⟩ := numeral.first_digit
    refine ⟨by simp [same], ?_, fun rest follows => ?_⟩
    · exact same ▸ solid_cons (not_blank_of_digit digit) tail
    · have stops := follows.ends_literal (by simp [factorEnds, termEnds])
      exact .choice (.here (derives_number numeral (Decimal.takes_unsigned numeral stops) read))
  | .group left inner right =>
    refine ⟨by simp, solid_cons (by decide) _, fun rest _ => ?_⟩
    refine .choice (.later (derives_number_fails (by simp)) (.here ?_))
    exact derives_group left (expr_operand inner.chained) right

theorem Term.chained {text : Text} {value : Float} (product : Term text value) :
    Chained (Operand Calculator.rules factor factorEnds) "*/".toList text value := by
  match product with
  | .factor single => exact .single single.operand
  | .times product left right single =>
    exact product.chained.snoc left (by decide) right single.operand rfl
  | .over product left right single =>
    exact product.chained.snoc left (by decide) right single.operand rfl

theorem Expr.chained {text : Text} {value : Float} (sum : Expr text value) :
    Chained (Operand Calculator.rules term termEnds) "+-".toList text value := by
  match sum with
  | .term product => exact .single (term_operand product.chained)
  | .plus sum left right product =>
    exact sum.chained.snoc left (by decide) right (term_operand product.chained) rfl
  | .minus sum left right product =>
    exact sum.chained.snoc left (by decide) right (term_operand product.chained) rfl

end

theorem Expr.operand {text : Text} {value : Float} (sum : Expr text value) :
    Operand Calculator.rules expr [')'] text value :=
  expr_operand sum.chained

end Peg.Language.Calculator
