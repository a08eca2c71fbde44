import Peg.Proofs.Scan
import Peg.Proofs.Sexpr.Expression
import Peg.Proofs.Termination

/-!
Reading an expression undoes writing it. Every rendering is read whole, as the tree of its
expression; what is read was written; and where nothing is read, no expression was written.
-/
namespace Peg.Language.Sexpr

open Grammar Text Expression

variable {input rest : Text} {found : Match}

theorem derives_atom (name : Name) (ends : EndsName rest) :
    Derives rules atom (name.text ++ rest)
      (.done (some ⟨name.text, rest, some (.text name.text)⟩)) :=
  derives_capture_many1_chars .alphanum name.plain ends name.nonempty

theorem derives_atom_fails (ends : EndsName rest) : Derives rules atom rest (.done none) :=
  .captureFails (derives_many1_chars_fails .alphanum ends)

theorem name_or_ends (input : Text) :
    (∃ (name : Name) (rest : Text), name.text ++ rest = input ∧ EndsName rest) ∨ EndsName input := by
  obtain ⟨run, rest, rfl, plain, ends⟩ := exists_run Char.isAlphanum input
  by_cases empty : run = []
  · subst empty
    exact .inr ends
  · exact .inl ⟨⟨run, empty, plain⟩, rest, rfl, ends⟩

theorem derives_item {part : Match} {blanks tail : Text}
    (whole : Derives rules expr input (.done (some part))) (split : part.rest = blanks ++ tail)
    (blank : Blank blanks) (solid : Solid tail) :
    Derives rules item input (.done (some ⟨part.parsed ++ blanks, tail, part.tree⟩)) := by
  have called : Derives rules (rule "expr".toList) input _ := .rule rfl whole
  have gap : Derives rules whitespace part.rest (.done (some ⟨blanks, tail, none⟩)) := by
    rw [split]
    exact .whitespace blanks tail blank solid
  have acts : Action.first (Match.joined input [part, ⟨blanks, tail, none⟩]).tree = .ok part.tree := by
    cases same : part.tree with
    | none | some => simp [Match.joined, same, Action.first, Action.onTree, Action.total, Tree.list?]
  have derived : Derives rules item input _ :=
    .action (.sequence (.cons called (.cons gap (.nil _)))) acts
  simpa [Match.joined, Match.after] using derived

theorem derives_group {items : List Expression} {blanks body : Text} {row : List Match}
    (blank : Blank blanks)
    (solid : Solid (body ++ ')' :: rest))
    (rounds : DerivesRepetition rules item (body ++ ')' :: rest) (.done row))
    (parsed : row.flatMap (·.parsed) = body) (made : row.filterMap (·.tree) = trees items)
    (empty : row = [] ↔ items = []) :
    Derives rules group ('(' :: blanks ++ body ++ [')'] ++ rest)
      (.done (some ⟨'(' :: blanks ++ body ++ [')'], rest, some (.list (trees items))⟩)) := by
  have left := rounds.consecutive.after_eq parsed
  obtain ⟨tree, inner, acts⟩ : ∃ tree, Derives rules (many item) (body ++ ')' :: rest)
      (.done (some ⟨body, ')' :: rest, tree⟩)) ∧
      Action.firstOrEmpty (some (.list tree.toList)) = .ok (some (.list (trees items))) := by
    have inner := Derives.many_of_rounds rounds
    rw [parsed, left, made] at inner
    refine ⟨_, inner, ?_⟩
    by_cases none : row = []
    · obtain rfl := empty.mp none
      simp [none, Action.firstOrEmpty, Action.onTree, Action.total, Tree.list?, trees]
    · simp [none, Action.firstOrEmpty, Action.onTree, Action.total, Tree.list?]
  have opening : Derives rules (token "(").silent ('(' :: (blanks ++ (body ++ ')' :: rest)))
      (.done (some ⟨['('], blanks ++ (body ++ ')' :: rest), none⟩)) :=
    derives_silent (List.cons_ne_nil '(' []) _
  have gap : Derives rules whitespace (blanks ++ (body ++ ')' :: rest)) _ :=
    .whitespace blanks _ blank solid
  have closing : Derives rules (token ")").silent (')' :: rest)
      (.done (some ⟨[')'], rest, none⟩)) :=
    derives_silent (List.cons_ne_nil ')' []) rest
  have whole := Derives.sequence (.cons opening (.cons gap (.cons inner (.cons closing (.nil _)))))
  have derived : Derives rules group ('(' :: (blanks ++ (body ++ ')' :: rest)))
      (.done (some ⟨['('] ++ (blanks ++ (body ++ ([')'] ++ []))), rest,
        some (.list (trees items))⟩)) :=
    .action whole (by cases tree <;> exact acts)
  simpa using derived

mutual

theorem Rendering.reads {e : Expression} {text rest : Text} (written : Rendering e text)
    (ends : e.isAtom = true → EndsName rest) :
    Derives rules expr (text ++ rest) (.done (some ⟨text, rest, some e.tree⟩)) := by
  match written with
  | .atom name => exact .choice (.here (derives_atom name (ends rfl)))
  | .list blank inner =>
    obtain ⟨row, rounds, parsed, made, empty⟩ := inner.rounds rest
    have derived := derives_group blank (inner.solid rest) rounds parsed made empty
    exact .choice (.later (derives_atom_fails (by simp [EndsName])) (.here derived))

theorem Spaced.rounds {items : List Expression} {body : Text} (spaced : Spaced items body)
    (rest : Text) :
    ∃ row, DerivesRepetition rules item (body ++ ')' :: rest) (.done row) ∧
      row.flatMap (·.parsed) = body ∧ row.filterMap (·.tree) = trees items ∧
      (row = [] ↔ items = []) := by
  match spaced with
  | .nil =>
    have stop : Derives rules expr (')' :: rest) (.done none) := by
      refine .choice (.later (derives_atom_fails (by simp [EndsName])) (.later ?_ (.nil _)))
      exact .actionFails (.sequenceFails (.headFails (derives_silent_fails (by simp))))
    have fails : Derives rules item (')' :: rest) (.done none) :=
      .actionFails (.sequenceFails (.headFails (.rule rfl stop)))
    exact ⟨[], .fails fails, rfl, rfl, Iff.intro (fun _ => rfl) fun _ => rfl⟩
  | @Spaced.cons first items text blanks body written blank apart later =>
    obtain ⟨row, rounds, parsed, made, -⟩ := later.rounds rest
    have ends : first.isAtom = true → EndsName (blanks ++ (body ++ ')' :: rest)) := fun atom =>
      later.ends_name blank rest fun next here => apart next here atom
    have derived := derives_item (written.reads ends) rfl blank (later.solid rest)
    obtain ⟨c, tail, same, -⟩ := written.first
    have nonempty : text ++ blanks ≠ [] := by simp [same]
    refine ⟨⟨text ++ blanks, body ++ ')' :: rest, some first.tree⟩ :: row, ?_, ?_, ?_,
      iff_of_false (List.cons_ne_nil _ _) (List.cons_ne_nil _ _)⟩
    · rw [List.append_assoc, List.append_assoc]
      exact .more derived nonempty rounds
    · rw [List.flatMap_cons, parsed, List.append_assoc]
    · rw [Match.trees_cons, made]
      rfl

end

structure ReadAs (e : Expression) (found : Match) : Prop where
  written : Rendering e found.parsed
  tree : found.tree = some e.tree
  ends : e.isAtom = true → EndsName found.rest

theorem atom_read (derived : Derives rules atom input (.done (some found))) :
    ∃ e, ReadAs e found := by
  rcases name_or_ends input with ⟨name, rest, rfl, ends⟩ | ends
  · cases derived.unique (derives_atom name ends)
    exact ⟨.atom name, .atom name, rfl, fun _ => ends⟩
  · cases derived.unique (derives_atom_fails ends)

theorem item_matched (derived : Derives rules item input (.done (some found))) :
    ∃ part blanks, Derives rules expr input (.done (some part)) ∧ Blank blanks ∧
      part.rest = blanks ++ found.rest ∧ found.parsed = part.parsed ++ blanks ∧
      ∀ tree, part.tree = some tree → found.tree = some tree := by
  obtain ⟨whole, inside, acts, parsed, left⟩ := derived.action_matched
  obtain ⟨row, parts, rfl⟩ := inside.sequence_matched
  obtain ⟨part, _, rfl, called, parts⟩ := parts.cons_matched
  obtain ⟨gap, _, rfl, blanks, parts⟩ := parts.cons_matched
  obtain rfl := parts.nil_matched
  have split := Outcome.splits_matched.mp blanks.splits
  obtain ⟨blank, -, bare⟩ := blanks.whitespace_matched
  have body : Derives rules expr input (.done (some part)) := by
    cases called with
    | rule known body =>
      cases known
      exact body
  refine ⟨part, gap.parsed, body, blank, ?_, ?_, fun tree same => ?_⟩
  · rw [left]
    exact split.symm
  · rw [parsed]
    simp [Match.joined]
  · rw [Match.joined, Match.trees_cons, Match.trees_cons, same, bare] at acts
    exact (Except.ok.inj acts).symm

theorem rounds_read {input : Text} {row : List Match}
    (below : ∀ text : Text, text.length ≤ input.length → ∀ found,
      Derives rules expr text (.done (some found)) → ∃ e, ReadAs e found)
    (rounds : DerivesRepetition rules item input (.done row)) :
    ∃ items, Spaced items (row.flatMap (·.parsed)) ∧ row.filterMap (·.tree) = trees items ∧
      (row = [] ↔ items = []) := by
  cases rounds with
  | fails | empty => exact ⟨[], .nil, rfl, Iff.intro (fun _ => rfl) fun _ => rfl⟩
  | @more _ _ found row head nonempty tail =>
    have below' : ∀ text : Text, text.length ≤ found.rest.length → ∀ found,
        Derives rules expr text (.done (some found)) → ∃ e, ReadAs e found :=
      fun text short => below text (short.trans head.rest_length_le)
    obtain ⟨items, later, made, -⟩ := rounds_read below' tail
    obtain ⟨part, blanks, whole, blank, split, parsed, same⟩ := item_matched head
    obtain ⟨e, written, tree, ends⟩ := below input le_rfl part whole
    have behind := tail.consecutive.splits
    refine ⟨e :: items, ?_, ?_, iff_of_false (List.cons_ne_nil _ _) (List.cons_ne_nil _ _)⟩
    · rw [List.flatMap_cons, parsed, List.append_assoc]
      refine .cons written blank (fun next here atom atom' none => ?_) later
      obtain ⟨items, rfl⟩ := List.head?_eq_some_iff.mp here
      subst none
      generalize row.flatMap (·.parsed) = body at later behind
      cases later with
      | cons first =>
        obtain ⟨c, rest, rfl, -, kind⟩ := first.first
        have stops := ends atom
        rw [split, ← behind] at stops
        have plain := stops c rfl
        rw [kind, atom'] at plain
        cases plain
    · rw [Match.trees_cons, same _ tree, made]
      rfl
termination_by row.length

theorem group_read
    (below : ∀ text : Text, text.length < input.length → ∀ found,
      Derives rules expr text (.done (some found)) → ∃ e, ReadAs e found)
    (derived : Derives rules group input (.done (some found))) : ∃ e, ReadAs e found := by
  obtain ⟨whole, inside, acts, parsed, -⟩ := derived.action_matched
  obtain ⟨row, parts, rfl⟩ := inside.sequence_matched
  obtain ⟨opening, _, rfl, opens, parts⟩ := parts.cons_matched
  obtain ⟨left, _, rfl, blanks, parts⟩ := parts.cons_matched
  obtain ⟨inner, _, rfl, repeated, parts⟩ := parts.cons_matched
  obtain ⟨closing, _, rfl, closes, parts⟩ := parts.cons_matched
  obtain rfl := parts.nil_matched
  obtain ⟨splits, first, noOpening⟩ := opens.silent_matched (List.cons_ne_nil '(' [])
  obtain ⟨blank, -, noLeft⟩ := blanks.whitespace_matched
  obtain ⟨-, last, noClosing⟩ := closes.silent_matched (List.cons_ne_nil ')' [])
  have shorter : left.rest.length < input.length := by
    have step := blanks.rest_length_le
    rw [← splits, List.length_append, List.length_singleton]
    omega
  have below' : ∀ text : Text, text.length ≤ left.rest.length → ∀ found,
      Derives rules expr text (.done (some found)) → ∃ e, ReadAs e found :=
    fun text short => below text (short.trans_lt shorter)
  have trees : [opening, left, inner, closing].filterMap (·.tree) = inner.tree.toList := by
    simp only [Match.trees_cons, noOpening, noLeft, noClosing]
    simp
  have enclosed {items : List Expression} (spaced : Spaced items inner.parsed) :
      Rendering (.list items) found.parsed := by
    rw [parsed, Match.joined]
    simpa [first, last] using Rendering.list blank spaced
  rw [Match.joined, trees] at acts
  cases repeated with
  | manyNone =>
    exact ⟨.list [], enclosed .nil, (Except.ok.inj acts).symm, nofun⟩
  | many rounds =>
    obtain ⟨items, spaced, made, -⟩ := rounds_read below' rounds
    rw [Match.joined, made] at acts
    exact ⟨.list items, enclosed spaced, (Except.ok.inj acts).symm, nofun⟩

theorem expr_read (derived : Derives rules expr input (.done (some found))) :
    ∃ e, ReadAs e found := by
  -- an expression is met again only inside parentheses, on a shorter text
  induction size : input.length using Nat.strong_induction_on generalizing input found with
  | _ n shorter =>
    subst size
    cases derived with
    | choice candidates =>
      cases candidates with
      | here head => exact atom_read head
      | later _ tail =>
        cases tail with
        | here head => exact group_read (fun text less found inner => shorter _ less inner rfl) head
        | later _ tail => cases tail

theorem expr_enters_nothing (name : Text) : ¬ Enters rules expr name := by
  intro enters
  cases enters with | choice candidate enters =>
  rcases List.mem_pair.mp candidate with rfl | rfl
  · cases enters with | capture enters =>
    cases enters with | many1 enters =>
    cases enters with | choice candidate enters =>
    rcases List.mem_pair.mp candidate with rfl | rfl <;> cases enters
  · cases enters with | action enters =>
    cases enters with | sequence parts =>
    cases parts with
    | head enters =>
      cases enters with | action enters => cases enters
    | tail empty _ =>
      cases empty with | action _ empty => cases empty

theorem rules_notLeftRecursive : rules.NotLeftRecursive := by
  refine Rules.notLeftRecursive_of_rank (fun _ => 0) ?_
  rintro name called ⟨g, known, enters⟩
  by_cases here : name = "expr".toList
  · subst here
    cases known
    exact absurd enters (expr_enters_nothing called)
  · rw [Rules.lookup_eq_none (by simpa [rules] using here)] at known
    cases known

theorem expr_sameShape : SameShape (fun act act' => act.IsTotal ∧ act'.IsTotal) expr expr := by
  have quiet (f : Option Tree → Option Tree) := Action.total_isTotal f
  have item : SameShape (fun act act' => act.IsTotal ∧ act'.IsTotal) item item :=
    .action (.sequence (.rule _) (.cons .whitespace .nil)) ⟨quiet _, quiet _⟩
  refine .choice (.capture (.many1 (.choice (.char _) (.cons (.char _) .nil)))) (.cons ?_ .nil)
  refine .action (.sequence (.action (.literal _) ⟨quiet _, quiet _⟩) ?_) ⟨quiet _, quiet _⟩
  exact .cons .whitespace (.cons (.many item) (.cons (.action (.literal _) ⟨quiet _, quiet _⟩) .nil))

theorem expr_answers (input : Text) : ∃ result, Derives rules expr input (.done result) :=
  exists_answer rules_notLeftRecursive expr_sameShape (.cons ⟨rfl, expr_sameShape⟩ .nil) input

theorem Rendering.exists_match {e : Expression} {text : Text} (written : Rendering e text)
    (front : text <+: input) : ∃ found, Derives rules expr input (.done (some found)) := by
  obtain ⟨rest, rfl⟩ := front
  by_cases atom : e.isAtom = true
  · obtain ⟨c, tail, rfl, -, kind⟩ := written.first
    rcases name_or_ends (c :: tail ++ rest) with ⟨name, rest', same, ends⟩ | ends
    · rw [← same]
      exact ⟨_, .choice (.here (derives_atom name ends))⟩
    · have refused := ends c rfl
      rw [kind, atom] at refused
      cases refused
  · exact ⟨_, written.reads fun here => absurd here atom⟩

/-- Parsing undoes rendering. A parse comes to an end with any text; it finds an expression and
its tree exactly where that expression is written, with no letter or digit behind an atom, and
finds nothing exactly where no front of the text is an expression. -/
theorem parse_undoes_rendering (input : Text) :
    (∃ result, parse input = .done result) ∧
    (∀ found, parse input = .done (some found) ↔
      found.parsed ++ found.rest = input ∧ ∃ e, ReadAs e found) ∧
    (parse input = .done none ↔ ∀ e text, Rendering e text → ¬ text <+: input) := by
  obtain ⟨result, derived⟩ := expr_answers input
  have ran : parse input = .done result := parse_eq_of_derives derived
  refine ⟨⟨result, ran⟩, fun found => ⟨fun same => ?_, ?_⟩, fun same => ?_, fun absent => ?_⟩
  · obtain rfl := Outcome.done.inj (ran.symm.trans same)
    exact ⟨Outcome.splits_matched.mp derived.splits, expr_read derived⟩
  · rintro ⟨rfl, e, written, tree, ends⟩
    obtain ⟨parsed, rest, made⟩ := found
    obtain rfl : made = some e.tree := tree
    exact parse_eq_of_derives (written.reads ends)
  · rintro e text written front
    obtain rfl := Outcome.done.inj (ran.symm.trans same)
    obtain ⟨found, other⟩ := written.exists_match front
    cases derived.unique other
  · cases result with
    | none => exact ran
    | some found =>
      obtain ⟨e, read⟩ := expr_read derived
      have front : found.parsed <+: input := ⟨_, Outcome.splits_matched.mp derived.splits⟩
      exact absurd front (absent e found.parsed read.written)

end Peg.Language.Sexpr
