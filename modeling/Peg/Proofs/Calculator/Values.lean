import Peg.Proofs.Calculator.Reading

/-!
Only expressions have values. A missing operand leaves no tree, which moves the
operators of a chain to the places of operands, where they stop the working off;
so a chain with a value has every operand that its operators ask for.
-/
namespace Peg.Language.Calculator

open Grammar Text

variable {rules : Rules} {g : Grammar} {symbols : String} {meaning : Text → Float → Prop}

/-- Every tree that the grammar makes on this text is a value that the consumed text has. -/
def Valued (rules : Rules) (g : Grammar) (meaning : Text → Float → Prop) (input : Text) : Prop :=
  ∀ found, Derives rules g input (.done (some found)) →
    found.tree = none ∨ ∃ value, found.tree = some (.float value) ∧ meaning found.parsed value

theorem operator_matched {input : Text} {gap : Match}
    (derived : Derives rules (operator symbols) input (.done (some gap))) :
    ∃ before c after, Blank before ∧ c ∈ symbols.toList ∧ Blank after ∧
      gap.parsed = before ++ c :: after ∧ gap.tree = some (.text [c]) := by
  obtain ⟨whole, inside, acts, parsed, -⟩ := derived.action_matched
  obtain ⟨row, parts, rfl⟩ := inside.sequence_matched
  obtain ⟨left, _, rfl, blanks, parts⟩ := parts.cons_matched
  obtain ⟨middle, _, rfl, symbol, parts⟩ := parts.cons_matched
  obtain ⟨right, _, rfl, blanks', parts⟩ := parts.cons_matched
  obtain rfl := parts.nil_matched
  obtain ⟨before, -, bare⟩ := blanks.whitespace_matched
  obtain ⟨after, -, bare'⟩ := blanks'.whitespace_matched
  obtain ⟨c, accepted, -, single, tree⟩ := symbol.char_matched
  refine ⟨left.parsed, c, right.parsed, before, List.mem_of_elem_eq_true accepted, after, ?_, ?_⟩
  · simp [parsed, Match.joined, single]
  · rw [Match.joined, Match.trees_cons, Match.trees_cons, Match.trees_cons, bare, tree, bare'] at acts
    exact (Except.ok.inj acts).symm

theorem pairs_start {input : Text} {row : List Match}
    (pairs : DerivesPairs rules g (operator symbols) input (.done row)) :
    row.filterMap (·.tree) = [] ∨
      ∃ piece trees, row.filterMap (·.tree) = Tree.text piece :: trees := by
  cases pairs with
  | separatorFails | valueFails | bothEmpty => exact .inl rfl
  | more gap item nonempty tail =>
    obtain ⟨-, c, -, -, -, -, -, tree⟩ := operator_matched gap
    right
    rw [Match.trees_cons, tree]
    exact ⟨[c], _, rfl⟩

theorem pairs_chain {input : Text} {row : List Match}
    (pairs : DerivesPairs rules g (operator symbols) input (.done row)) {total result : Float}
    (below : ∀ text : Text, text.length ≤ input.length → Valued rules g meaning text)
    (folded : Tree.foldPairs Tree.float? applyOperator total (row.filterMap (·.tree)) =
      .ok (some result)) :
    Chain meaning symbols.toList total (row.flatMap (·.parsed)) result := by
  cases pairs with
  | separatorFails | valueFails | bothEmpty =>
    cases folded
    exact .nil total
  | @more _ _ _ gap item row between value nonempty tail =>
    obtain ⟨before, c, after, left, member, right, parsed, tree⟩ := operator_matched between
    have short := between.rest_length_le
    have shorter := value.rest_length_le
    rw [Match.trees_cons, Match.trees_cons, tree] at folded
    rcases below gap.rest short item value with missing | ⟨operand, number, means⟩
    · have gap : Tree.foldPairs Tree.float? applyOperator total
          (.text [c] :: row.filterMap (·.tree)) = .ok none :=
        Tree.foldPairs_gap (pairs_start tail) fun _ => rfl
      rw [missing] at folded
      cases gap.symm.trans folded
    · rw [number] at folded
      cases applied : applyOperator [c] total operand with
      | error cause => simp [Tree.foldPairs, Tree.float?, Tree.text?, applied] at folded
      | ok worked =>
        cases worked with
        | none => simp [Tree.foldPairs, Tree.float?, Tree.text?, applied] at folded
        | some new =>
          have behind : Tree.foldPairs Tree.float? applyOperator new (row.filterMap (·.tree)) =
              .ok (some result) := by
            simpa [Tree.foldPairs, Tree.float?, Tree.text?, applied] using folded
          have later := pairs_chain tail
            (fun text small => below text (small.trans (shorter.trans short))) behind
          have chain := Chain.cons left member right means applied later
          rwa [← parsed] at chain
termination_by row.length

theorem sepBy_valued {input : Text}
    (below : ∀ text : Text, text.length ≤ input.length → Valued rules g meaning text) :
    Valued rules ((sepBy g (operator symbols)).action Calculator.total)
      (Chained meaning symbols.toList) input := by
  intro found derived
  obtain ⟨inside, matched, acts, parsed, -⟩ := derived.action_matched
  rw [parsed]
  cases matched with
  | sepByNone _ =>
    left
    exact (Except.ok.inj acts).symm
  | @sepBy _ _ _ item row first later =>
    rw [Match.joined, Match.trees_cons] at acts
    rcases below input le_rfl item first with missing | ⟨start, number, means⟩
    · left
      rw [missing] at acts
      rcases pairs_start later with empty | ⟨piece, trees, start⟩
      · rw [empty] at acts
        exact (Except.ok.inj acts).symm
      · rw [start] at acts
        exact (Except.ok.inj acts).symm
    · rw [number, Option.toList_some, List.singleton_append, total_list] at acts
      cases folded : Tree.foldPairs Tree.float? applyOperator start (row.filterMap (·.tree)) with
      | error cause =>
        rw [folded] at acts
        cases acts
      | ok worked =>
        rw [folded] at acts
        have tree := Except.ok.inj acts
        cases worked with
        | none => exact .inl tree.symm
        | some result =>
          have chain := pairs_chain later
            (fun text small => below text (small.trans first.rest_length_le)) folded
          exact .inr ⟨result, tree.symm, item.parsed, start, _, rfl, means, chain⟩

theorem number_valued (input : Text) : Valued rules number Factor input := by
  intro found derived
  rcases Decimal.exists_takes rules input with ⟨text, rest, rfl, numeral, takes⟩ | stop
  · obtain ⟨value, read⟩ := Decimal.exists_float? (.plain numeral)
    cases derived.unique (derives_number numeral takes read)
    exact .inr ⟨value, rfl, .number numeral read⟩
  · have fails : Derives rules number input (.done none) :=
      .actionFails (.captureFails (.sequenceFails stop))
    cases derived.unique fails

theorem group_valued {input : Text}
    (below : ∀ text : Text, text.length < input.length →
      Valued Calculator.rules expr Expr text) : Valued Calculator.rules group Factor input := by
  intro found derived
  obtain ⟨whole, inside, acts, parsed, -⟩ := derived.action_matched
  obtain ⟨row, parts, rfl⟩ := inside.sequence_matched
  obtain ⟨opening, _, rfl, opens, parts⟩ := parts.cons_matched
  obtain ⟨left, _, rfl, blanks, parts⟩ := parts.cons_matched
  obtain ⟨body, _, rfl, called, parts⟩ := parts.cons_matched
  obtain ⟨right, _, rfl, blanks', parts⟩ := parts.cons_matched
  obtain ⟨closing, _, rfl, closes, parts⟩ := parts.cons_matched
  obtain rfl := parts.nil_matched
  obtain ⟨splits, first, noOpening⟩ := opens.silent_matched (List.cons_ne_nil '(' [])
  obtain ⟨before, -, noLeft⟩ := blanks.whitespace_matched
  obtain ⟨after, -, noRight⟩ := blanks'.whitespace_matched
  obtain ⟨-, last, noClosing⟩ := closes.silent_matched (List.cons_ne_nil ')' [])
  have shorter : left.rest.length < input.length := by
    have step := blanks.rest_length_le
    rw [← splits, List.length_append, List.length_singleton]
    omega
  have inner : Derives Calculator.rules expr left.rest (.done (some body)) := by
    cases called with
    | rule known body =>
      cases known
      exact body
  have trees : [opening, left, body, right, closing].filterMap (·.tree) = body.tree.toList := by
    simp only [Match.trees_cons, noOpening, noLeft, noRight, noClosing]
    simp
  rw [Match.joined, trees] at acts
  rcases below left.rest shorter body inner with missing | ⟨value, number, means⟩
  · rw [missing] at acts
    exact .inl (Except.ok.inj acts).symm
  · rw [number] at acts
    refine .inr ⟨value, (Except.ok.inj acts).symm, ?_⟩
    have grouped := Factor.group before means after
    rw [parsed, Match.joined]
    simpa [first, last] using grouped

theorem factor_valued {input : Text}
    (below : ∀ text : Text, text.length < input.length →
      Valued Calculator.rules expr Expr text) : Valued Calculator.rules factor Factor input := by
  intro found derived
  cases derived with
  | choice candidates =>
    cases candidates with
    | here head => exact number_valued input found head
    | later _ tail =>
      cases tail with
      | here head => exact group_valued below found head
      | later _ tail => cases tail

theorem Valued.mono {wider : Text → Float → Prop} {input : Text}
    (valued : Valued rules g meaning input)
    (more : ∀ {text value}, meaning text value → wider text value) :
    Valued rules g wider input := by
  intro found derived
  rcases valued found derived with missing | ⟨value, tree, means⟩
  · exact .inl missing
  · exact .inr ⟨value, tree, more means⟩

theorem expr_valued (input : Text) : Valued Calculator.rules expr Expr input := by
  -- an expression is met again only inside parentheses, on a shorter text
  induction size : input.length using Nat.strong_induction_on generalizing input with
  | _ n shorter =>
    subst size
    have factors : ∀ text : Text, text.length ≤ input.length →
        Valued Calculator.rules factor Factor text := fun text short =>
      factor_valued fun inner less => shorter _ (less.trans_le short) inner rfl
    have terms : ∀ text : Text, text.length ≤ input.length →
        Valued Calculator.rules term Term text := fun text short =>
      (sepBy_valued fun inner less => factors inner (less.trans short)).mono Term.of_chained
    exact (sepBy_valued terms).mono Expr.of_chained

end Peg.Language.Calculator
