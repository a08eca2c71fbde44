import Mathlib.Data.List.Forall2
import Peg.Parser.Combinator
import Peg.Parser.Primitive

/-!
Two runs side by side. A simulation relates computations of two monitors step
by step; every parser then stays related to itself, and every combinator keeps
related parsers related. The parsers are compared on the ends of one text, so
that a relation that holds of those only can be carried through a parse.
-/
namespace Peg

/-- Two matches of one text that consume the same, and have the same tree as far
as `exact` asks for it. -/
structure Match.Alike (exact : Prop) (input : Text) (a b : Match) : Prop where
  splits : a.parsed ++ a.rest = input
  parsed : b.parsed = a.parsed
  rest : b.rest = a.rest
  tree : exact → b.tree = a.tree

theorem Match.Alike.suffix {exact : Prop} {input whole : Text} {a b : Match}
    (alike : Alike exact input a b) (inside : input <:+ whole) : a.rest <:+ whole :=
  (alike.splits ▸ List.suffix_append a.parsed a.rest).trans inside

theorem Match.Alike.weaken {exact less : Prop} {input : Text} {a b : Match}
    (alike : Alike exact input a b) (fewer : less → exact) : Alike less input a b :=
  ⟨alike.splits, alike.parsed, alike.rest, fun asked => alike.tree (fewer asked)⟩

theorem Match.Alike.refl (exact : Prop) {input : Text} {found : Match}
    (splits : found.parsed ++ found.rest = input) : Alike exact input found found :=
  ⟨splits, rfl, rfl, fun _ => rfl⟩

theorem Match.Alike.eq {input : Text} {a b : Match} (alike : Alike True input a b) : a = b := by
  obtain ⟨parsed, rest, tree⟩ := a
  obtain ⟨parsed', rest', tree'⟩ := b
  obtain rfl : parsed' = parsed := alike.parsed
  obtain rfl : rest' = rest := alike.rest
  obtain rfl : tree' = tree := alike.tree trivial
  rfl

theorem Match.Alike.option_eq {input : Text} {a b : Option Match}
    (alike : Option.Rel (Alike True input) a b) : a = b := by
  cases alike with
  | none => rfl
  | some alike => rw [alike.eq]

/-- A relation between the computations of two monitors that their steps keep.
Reports are told apart if the simulation is `audible`. -/
structure Simulation (m n : Type → Type) [Monitor m] [Monitor n] where
  Rel : {α β : Type} → (α → β → Prop) → m α → n β → Prop
  audible : Prop
  pure : ∀ {α β : Type} {R : α → β → Prop} {a : α} {b : β}, R a b → Rel R (pure a) (pure b)
  bind : ∀ {α β γ δ : Type} {R : α → β → Prop} {S : γ → δ → Prop} {x : m α} {y : n β}
    {f : α → m γ} {g : β → n δ},
    Rel R x y → (∀ a b, R a b → Rel S (f a) (g b)) → Rel S (x >>= f) (y >>= g)
  imp : ∀ {α β : Type} {R S : α → β → Prop} {x : m α} {y : n β},
    (∀ a b, R a b → S a b) → Rel R x y → Rel S x y
  note : ∀ {a b : Report}, (audible → b = a) →
    Rel (fun _ _ => True) (Monitor.note a : m Unit) (Monitor.note b : n Unit)
  within : ∀ {α β : Type} {R : α → β → Prop} {x : m α} {y : n β} (name : Text),
    Rel R x y → Rel R (Monitor.within name x) (Monitor.within name y)

namespace Simulation

variable {m n : Type → Type} [Monitor m] [Monitor n] (S : Simulation m n)

/-- Parsers whose matches are alike, on every end of the text `whole`. -/
def Related (exact : Prop) (whole : Text) (p : Parser m) (q : Parser n) : Prop :=
  ∀ input, input <:+ whole → S.Rel (Option.Rel (Match.Alike exact input)) (p input) (q input)

variable {S} {exact less : Prop} {whole : Text} {p v : Parser m} {q w : Parser n}

theorem Related.weaken (related : S.Related exact whole p q) (fewer : less → exact) :
    S.Related less whole p q := by
  intro input inside
  refine S.imp (fun a b both => ?_) (related input inside)
  cases both with
  | none => exact .none
  | some alike => exact .some (alike.weaken fewer)

theorem after_note {α β : Type} {R : α → β → Prop} {x : m α} {y : n β} (report : Report)
    (later : S.Rel R x y) :
    S.Rel R (Monitor.note report >>= fun _ => x) (Monitor.note report >>= fun _ => y) :=
  S.bind (S.note fun _ => rfl) fun _ _ _ => later

theorem after_option {α β γ δ : Type} {R : α → β → Prop} {T : γ → δ → Prop}
    {x : m (Option α)} {y : n (Option β)} {f : Option α → m γ} {g : Option β → n δ}
    (related : S.Rel (Option.Rel R) x y) (nothing : S.Rel T (f none) (g none))
    (something : ∀ a b, R a b → S.Rel T (f (some a)) (g (some b))) :
    S.Rel T (x >>= f) (y >>= g) := by
  refine S.bind related fun a b both => ?_
  cases both with
  | none => exact nothing
  | some pair => exact something _ _ pair

theorem refuse {R : Match → Match → Prop} (operation : Operation) (detail : Detail) (input : Text) :
    S.Rel (Option.Rel R) (Monitor.refuse operation detail input)
      (Monitor.refuse operation detail input) :=
  after_note _ (S.pure .none)

theorem after_consumed {α β : Type} {R : α → β → Prop} {f : Text → m α} {g : Text → n β}
    {front rest input : Text} (split : front ++ rest = input) (later : S.Rel R (f front) (g front)) :
    S.Rel R (Monitor.consumed input rest >>= f) (Monitor.consumed input rest >>= g) := by
  subst split
  simp only [Monitor.consumed, Text.before?_append]
  refine S.bind (S.pure (R := fun a b => a = front ∧ b = front) ⟨rfl, rfl⟩) fun a b both => ?_
  obtain ⟨rfl, rfl⟩ := both
  exact later

theorem literal (exact : Prop) (whole token : Text) :
    S.Related exact whole (Parser.literal token) (Parser.literal token) := by
  intro input _
  unfold Parser.literal
  split
  · exact after_note _ (S.pure (.some (.refl exact rfl)))
  · refine after_note _ ?_
    split
    · next rest found =>
      have split := Text.after?_eq_some_iff.mp found
      exact after_consumed split (after_note _ (S.pure (.some (.refl exact split))))
    · exact refuse ..

theorem char (exact : Prop) (whole : Text) (accepted : CharClass) :
    S.Related exact whole (Parser.char accepted) (Parser.char accepted) := by
  intro input _
  unfold Parser.char
  refine after_note _ ?_
  split
  · exact refuse ..
  · split
    · exact after_note _ (S.pure (.some (.refl exact rfl)))
    · exact refuse ..

theorem whitespace (exact : Prop) (whole : Text) :
    S.Related exact whole Parser.whitespace Parser.whitespace := by
  intro input _
  have split : input.takeWhile Text.isBlank ++ Text.trimStart input = input :=
    List.takeWhile_append_dropWhile
  exact after_note _ (after_consumed split (S.pure (.some (.refl exact split))))

theorem endOfInput (exact : Prop) (whole : Text) :
    S.Related exact whole Parser.endOfInput Parser.endOfInput := by
  intro input _
  unfold Parser.endOfInput
  split
  · exact after_note _ (S.pure (.some (.refl exact rfl)))
  · exact refuse ..

theorem leaf (exact : Prop) (whole : Text) (parser : Leaf) :
    S.Related exact whole (Parser.leaf parser) (Parser.leaf parser) := by
  intro input _
  refine S.pure ?_
  cases found : parser.run input with
  | none => exact .none
  | some found' => exact .some (.refl exact (parser.parsed_append_rest found))

structure ChainAlike (exact : Prop) (input : Text) (a b : List Tree × Text) : Prop where
  splits : ∃ front, front ++ a.2 = input
  rest : b.2 = a.2
  trees : exact → b.1 = a.1

theorem chain {ps : List (Parser m)} {qs : List (Parser n)}
    (parts : List.Forall₂ (S.Related exact whole) ps qs) {input : Text} (inside : input <:+ whole) :
    S.Rel (Option.Rel (ChainAlike exact input)) (Parser.chain ps input) (Parser.chain qs input) := by
  induction parts generalizing input with
  | nil => exact S.pure (.some ⟨⟨[], rfl⟩, rfl, fun _ => rfl⟩)
  | cons head tail ih =>
    rw [Parser.chain, Parser.chain]
    refine after_option (head input inside) (S.pure .none) fun found other alike => ?_
    simp only [alike.rest]
    refine after_option (ih (alike.suffix inside)) (S.pure .none) fun later later' same => ?_
    obtain ⟨⟨front, split⟩, rest, trees⟩ := same
    refine S.pure (.some ⟨⟨found.parsed ++ front, ?_⟩, rest, fun asked => ?_⟩)
    · rw [List.append_assoc, split, alike.splits]
    · rw [alike.tree asked, trees asked]

theorem sequence {ps : List (Parser m)} {qs : List (Parser n)}
    (parts : List.Forall₂ (S.Related exact whole) ps qs) :
    S.Related exact whole (Parser.sequence ps) (Parser.sequence qs) := by
  intro input inside
  unfold Parser.sequence
  rw [parts.length_eq]
  refine after_note _ (after_option (chain parts inside) (refuse ..) ?_)
  intro ⟨trees, rest⟩ ⟨trees', rest'⟩ same
  obtain ⟨⟨front, split⟩, same, equal⟩ := same
  obtain rfl : rest' = rest := same
  refine after_consumed split (after_note _ (S.pure (.some ⟨split, rfl, rfl, fun asked => ?_⟩)))
  obtain rfl : trees' = trees := equal asked
  rfl

theorem firstMatch {ps : List (Parser m)} {qs : List (Parser n)}
    (candidates : List.Forall₂ (S.Related exact whole) ps qs) {input : Text}
    (inside : input <:+ whole) (index : Nat) :
    S.Rel (Option.Rel fun a b => b.1 = a.1 ∧ Match.Alike exact input a.2 b.2)
      (Parser.firstMatch input ps index) (Parser.firstMatch input qs index) := by
  induction candidates generalizing index with
  | nil => exact S.pure .none
  | cons head tail ih =>
    rw [Parser.firstMatch, Parser.firstMatch]
    exact after_option (head input inside) (ih (index + 1)) fun found other alike =>
      S.pure (.some ⟨rfl, alike⟩)

theorem choice {ps : List (Parser m)} {qs : List (Parser n)}
    (candidates : List.Forall₂ (S.Related exact whole) ps qs) :
    S.Related exact whole (Parser.choice ps) (Parser.choice qs) := by
  intro input inside
  unfold Parser.choice
  rw [candidates.length_eq]
  refine after_note _ (after_option (firstMatch candidates inside 0) (refuse ..) ?_)
  intro ⟨index, found⟩ ⟨index', found'⟩ both
  obtain ⟨same, alike⟩ := both
  obtain rfl : index' = index := same
  exact after_note _ (S.pure (.some alike))

structure RepetitionAlike (exact : Prop) (input : Text) (a b : Parser.Repetition) : Prop where
  splits : ∃ front, front ++ a.rest = input
  count : b.count = a.count
  rest : b.rest = a.rest
  trees : exact → b.trees = a.trees

theorem iterate (related : S.Related exact whole p q) {attempts : Nat} (count : Nat) {input : Text}
    (inside : input <:+ whole) (enough : input.length < attempts) :
    S.Rel (RepetitionAlike exact input) (Parser.iterate p attempts count input)
      (Parser.iterate q attempts count input) := by
  induction attempts generalizing count input with
  | zero => omega
  | succ attempts ih =>
    have stop : RepetitionAlike exact input ⟨count, [], input⟩ ⟨count, [], input⟩ :=
      ⟨⟨[], rfl⟩, rfl, rfl, fun _ => rfl⟩
    rw [Parser.iterate, Parser.iterate]
    refine after_option (related input inside) (S.pure stop) fun found other alike => ?_
    simp only [alike.parsed, alike.rest]
    split
    · exact after_note _ (S.pure stop)
    · next nonempty =>
      have shorter := Match.rest_length_lt alike.splits (by simpa using nonempty)
      have room : found.rest.length < attempts := Nat.lt_of_lt_of_le shorter (Nat.le_of_lt_succ enough)
      refine S.bind (ih (count + 1) (alike.suffix inside) room) fun later later' same => ?_
      obtain ⟨⟨front, split⟩, same, rest, trees⟩ := same
      refine S.pure ⟨⟨found.parsed ++ front, ?_⟩, same, rest, fun asked => ?_⟩
      · rw [List.append_assoc, split, alike.splits]
      · simp only [alike.tree asked, trees asked]

theorem many (related : S.Related exact whole p q) :
    S.Related exact whole (Parser.many p) (Parser.many q) := by
  intro input inside
  unfold Parser.many
  refine after_note _ (S.bind (iterate related 0 inside (Nat.lt_succ_self _)) ?_)
  intro found other same
  obtain ⟨⟨front, split⟩, count, rest, trees⟩ := same
  simp only [count, rest]
  refine after_note _ ?_
  split
  · exact S.pure (.some (.refl exact rfl))
  · refine after_consumed split (S.pure (.some ⟨split, rfl, rfl, fun asked => ?_⟩))
    rw [trees asked]

theorem many1 (related : S.Related exact whole p q) :
    S.Related exact whole (Parser.many1 p) (Parser.many1 q) := by
  intro input inside
  unfold Parser.many1
  refine after_note _ (S.bind (iterate related 0 inside (Nat.lt_succ_self _)) ?_)
  intro found other same
  obtain ⟨⟨front, split⟩, count, rest, trees⟩ := same
  simp only [count, rest]
  split
  · exact refuse ..
  · refine after_note _
      (after_consumed split (S.pure (.some ⟨split, rfl, rfl, fun asked => ?_⟩)))
    rw [trees asked]

theorem pairs (items : S.Related exact whole p q) (gaps : S.Related exact whole v w)
    {attempts : Nat} {input : Text} (inside : input <:+ whole) (enough : input.length < attempts) :
    S.Rel (ChainAlike exact input) (Parser.pairs p v attempts input)
      (Parser.pairs q w attempts input) := by
  induction attempts generalizing input with
  | zero => omega
  | succ attempts ih =>
    have stop : ChainAlike exact input ([], input) ([], input) :=
      ⟨⟨[], rfl⟩, rfl, fun _ => rfl⟩
    rw [Parser.pairs, Parser.pairs]
    refine after_option (gaps input inside) (S.pure stop) fun gap gap' between => ?_
    simp only [between.parsed, between.rest]
    have behind : gap.rest <:+ whole := between.suffix inside
    refine after_option (items gap.rest behind) (S.pure stop) fun item item' alike => ?_
    simp only [alike.parsed, alike.rest]
    split
    · exact S.pure stop
    · next nonempty =>
      have shorter := Match.pair_rest_length_lt between.splits alike.splits
        (by simpa using nonempty)
      have room : item.rest.length < attempts := Nat.lt_of_lt_of_le shorter (Nat.le_of_lt_succ enough)
      refine S.bind (ih (alike.suffix behind) room) ?_
      intro ⟨trees, rest⟩ ⟨trees', rest'⟩ same
      obtain ⟨⟨front, split⟩, same, equal⟩ := same
      refine S.pure ⟨⟨gap.parsed ++ (item.parsed ++ front), ?_⟩, same, fun asked => ?_⟩
      · rw [List.append_assoc, List.append_assoc, split, alike.splits, between.splits]
      · obtain rfl : trees' = trees := equal asked
        simp only [between.tree asked, alike.tree asked]

theorem sepBy (heard : S.audible → exact) (items : S.Related exact whole p q)
    (gaps : S.Related exact whole v w) :
    S.Related exact whole (Parser.sepBy p v) (Parser.sepBy q w) := by
  intro input inside
  unfold Parser.sepBy
  refine after_note _ (after_option (items input inside) ?_ fun item item' alike => ?_)
  · exact after_note _ (S.pure (.some (.refl exact rfl)))
  · simp only [alike.rest]
    refine S.bind (pairs items gaps (alike.suffix inside) (Nat.lt_succ_self _)) ?_
    intro ⟨trees, rest⟩ ⟨trees', rest'⟩ same
    obtain ⟨⟨front, split⟩, same, equal⟩ := same
    obtain rfl : rest' = rest := same
    have split : (item.parsed ++ front) ++ rest' = input := by
      rw [List.append_assoc, split, alike.splits]
    have trees : exact → item'.tree.toList ++ trees' = item.tree.toList ++ trees := by
      intro asked
      obtain rfl : trees' = trees := equal asked
      rw [alike.tree asked]
    refine after_consumed split (S.bind (S.note fun asked => ?_) fun _ _ _ => S.pure (.some ?_))
    · rw [trees (heard asked)]
    · exact ⟨split, rfl, rfl, fun asked => by rw [trees asked]⟩

theorem capture (exact : Prop) (related : S.Related less whole p q) :
    S.Related exact whole (Parser.capture p) (Parser.capture q) := by
  intro input inside
  refine after_option (related input inside) (S.pure .none) fun found other alike => ?_
  simp only [alike.parsed]
  exact after_note _ (S.pure (.some ⟨alike.splits, rfl, alike.rest, fun _ => rfl⟩))

/-- Two actions that are as good as one to what goes on behind their report. They run on
trees that are equal as far as `less` asks, and leave trees that are so for `exact`. -/
structure Carries (S : Simulation m n) (less exact : Prop) (act act' : Action) : Prop where
  behind : ∀ {α β : Type} {R : α → β → Prop} {f : Option Tree → m α} {g : Option Tree → n β}
    (input : Text) (tree tree' : Option Tree), (less → tree' = tree) →
    (∀ new new', (exact → new' = new) → S.Rel R (f new) (g new')) →
    S.Rel R
      (do
        let new ← Monitor.apply act tree
        Monitor.note ⟨.action, .words [], input, .made new⟩
        f new)
      (do
        let new ← Monitor.apply act' tree'
        Monitor.note ⟨.action, .words [], input, .made new⟩
        g new)

theorem Carries.of_apply {act act' : Action} (heard : S.audible → exact)
    (acts : ∀ tree tree', (less → tree' = tree) →
      S.Rel (fun new new' => exact → new' = new) (Monitor.apply act tree)
        (Monitor.apply act' tree')) :
    S.Carries less exact act act' := by
  constructor
  intro _ _ _ _ _ input tree tree' equal later
  refine S.bind (acts tree tree' equal) fun new new' made => ?_
  refine S.bind (S.note fun asked => ?_) fun _ _ _ => later new new' made
  rw [made (heard asked)]

theorem action {act act' : Action} (related : S.Related less whole p q)
    (carries : S.Carries less exact act act') :
    S.Related exact whole (Parser.action p act) (Parser.action q act') := by
  intro input inside
  refine after_option (related input inside) (S.pure .none) fun found other alike => ?_
  refine carries.behind input found.tree other.tree alike.tree fun new new' equal => ?_
  exact S.pure (.some ⟨alike.splits, alike.parsed, alike.rest, equal⟩)

theorem optional (related : S.Related exact whole p q) :
    S.Related exact whole (Parser.optional p) (Parser.optional q) := by
  intro input inside
  exact after_option (related input inside) (S.pure (.some (.refl exact rfl)))
    fun found other alike => S.pure (.some alike)

theorem complete (related : S.Related exact whole p q) :
    S.Related exact whole (Parser.complete p) (Parser.complete q) := by
  intro input inside
  refine after_option (related input inside) (S.pure .none) fun found other alike => ?_
  simp only [alike.rest]
  split
  · exact S.pure (.some alike)
  · exact refuse ..

theorem label (name : Text) (related : S.Related exact whole p q) :
    S.Related exact whole (Parser.label name p) (Parser.label name q) :=
  fun input inside => S.within name (related input inside)

end Simulation
end Peg
