import Peg.Language.Calculator
import Peg.Proofs.Decimal.Literal

/-!
The expressions of the calculator with their values, as a grammar that says nothing
of parsers: numbers and parentheses, products of these from left to right, and sums
of products from left to right, with blanks between any two tokens.
-/
namespace Peg.Language.Calculator

open Text

mutual

inductive Factor : Text → Float → Prop
  | number {text value} (literal : Decimal.Unsigned text)
      (read : Decimal.float? text = some value) : Factor text value
  | group {before text after value} (left : Blank before) (inner : Expr text value)
      (right : Blank after) : Factor ('(' :: before ++ text ++ after ++ [')']) value

inductive Term : Text → Float → Prop
  | factor {text value} (single : Factor text value) : Term text value
  | times {text before after next a b} (first : Term text a) (left : Blank before)
      (right : Blank after) (second : Factor next b) :
      Term (text ++ before ++ '*' :: after ++ next) (a * b)
  | over {text before after next a b} (first : Term text a) (left : Blank before)
      (right : Blank after) (second : Factor next b) :
      Term (text ++ before ++ '/' :: after ++ next) (a / b)

inductive Expr : Text → Float → Prop
  | term {text value} (single : Term text value) : Expr text value
  | plus {text before after next a b} (first : Expr text a) (left : Blank before)
      (right : Blank after) (second : Term next b) :
      Expr (text ++ before ++ '+' :: after ++ next) (a + b)
  | minus {text before after next a b} (first : Expr text a) (left : Blank before)
      (right : Blank after) (second : Term next b) :
      Expr (text ++ before ++ '-' :: after ++ next) (a - b)

end

/-- Operators of one set, each with an operand behind it, worked off from left to right. -/
inductive Chain (operand : Text → Float → Prop) (symbols : Text) : Float → Text → Float → Prop
  | nil (total) : Chain operand symbols total [] total
  | cons {total before symbol after text value new later result} (left : Blank before)
      (member : symbol ∈ symbols) (right : Blank after) (item : operand text value)
      (applied : applyOperator [symbol] total value = .ok (some new))
      (tail : Chain operand symbols new later result) :
      Chain operand symbols total (before ++ symbol :: after ++ (text ++ later)) result

theorem Chain.snoc {operand : Text → Float → Prop} {symbols later before after text : Text}
    {symbol : Char} {total middle value result : Float}
    (chain : Chain operand symbols total later middle) (left : Blank before)
    (member : symbol ∈ symbols) (right : Blank after) (item : operand text value)
    (applied : applyOperator [symbol] middle value = .ok (some result)) :
    Chain operand symbols total (later ++ before ++ symbol :: after ++ text) result := by
  induction chain with
  | nil total =>
    have last : Chain operand symbols total (before ++ symbol :: after ++ (text ++ [])) result :=
      .cons left member right item applied (.nil result)
    rwa [List.append_nil] at last
  | cons left' member' right' item' applied' _ ih =>
    have behind := Chain.cons left' member' right' item' applied' (ih applied)
    simpa only [List.append_assoc, List.cons_append] using behind

def Chained (operand : Text → Float → Prop) (symbols text : Text) (value : Float) : Prop :=
  ∃ first total later, text = first ++ later ∧ operand first total ∧
    Chain operand symbols total later value

section

variable {operand whole : Text → Float → Prop} {symbols text before after next : Text}
variable {symbol : Char} {total value result : Float}

theorem Chained.single (item : operand text value) : Chained operand symbols text value :=
  ⟨text, value, [], (List.append_nil text).symm, item, .nil value⟩

theorem Chained.snoc (chained : Chained operand symbols text total) (left : Blank before)
    (member : symbol ∈ symbols) (right : Blank after) (item : operand next value)
    (applied : applyOperator [symbol] total value = .ok (some result)) :
    Chained operand symbols (text ++ before ++ symbol :: after ++ next) result := by
  obtain ⟨first, start, later, rfl, head, chain⟩ := chained
  have longer := chain.snoc left member right item applied
  exact ⟨first, start, _, by simp only [List.append_assoc], head, longer⟩

theorem Chained.induction (chained : Chained operand symbols text result)
    (single : ∀ {text value}, operand text value → whole text value)
    (step : ∀ {text before symbol after next total value new}, whole text total → Blank before →
      symbol ∈ symbols → Blank after → operand next value →
      applyOperator [symbol] total value = .ok (some new) →
      whole (text ++ before ++ symbol :: after ++ next) new) : whole text result := by
  obtain ⟨first, start, later, rfl, head, chain⟩ := chained
  have front := single head
  clear head
  induction chain generalizing first with
  | nil => rwa [List.append_nil]
  | cons left member right item applied _ ih =>
    have longer := ih _ (step front left member right item applied)
    simpa only [List.append_assoc, List.cons_append] using longer

end

theorem Term.of_chained {text : Text} {value : Float}
    (chained : Chained Factor "*/".toList text value) : Term text value := by
  refine chained.induction .factor fun first left member right item applied => ?_
  rcases List.mem_pair.mp member with rfl | rfl
  · cases applied
    exact .times first left right item
  · cases applied
    exact .over first left right item

theorem Expr.of_chained {text : Text} {value : Float}
    (chained : Chained Term "+-".toList text value) : Expr text value := by
  refine chained.induction .term fun first left member right item applied => ?_
  rcases List.mem_pair.mp member with rfl | rfl
  · cases applied
    exact .plus first left right item
  · cases applied
    exact .minus first left right item

end Peg.Language.Calculator
