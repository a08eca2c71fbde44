import Peg.Grammar.Parse
import Peg.Proofs.Simulation.Basic

/-!
Grammars of one shape run side by side. They differ in their actions at most, so
that a simulation which can cope with those relates whatever the two parse. The
trees are equal where the actions give equal trees, and in any case where no
action stands outside a capture.
-/
namespace Peg.Grammar

mutual

/-- Two grammars that are the same but for their actions, which `swap` relates
one by one. -/
inductive SameShape (swap : Action → Action → Prop) : Grammar → Grammar → Prop
  | literal (token) : SameShape swap (.literal token) (.literal token)
  | char (accepted) : SameShape swap (.char accepted) (.char accepted)
  | whitespace : SameShape swap .whitespace .whitespace
  | endOfInput : SameShape swap .endOfInput .endOfInput
  | sequence {f f' gs gs'} (first : SameShape swap f f') (others : SameShapes swap gs gs') :
      SameShape swap (.sequence f gs) (.sequence f' gs')
  | choice {f f' gs gs'} (first : SameShape swap f f') (others : SameShapes swap gs gs') :
      SameShape swap (.choice f gs) (.choice f' gs')
  | many {g g'} (inner : SameShape swap g g') : SameShape swap (.many g) (.many g')
  | many1 {g g'} (inner : SameShape swap g g') : SameShape swap (.many1 g) (.many1 g')
  | sepBy {v v' s s'} (value : SameShape swap v v') (separator : SameShape swap s s') :
      SameShape swap (.sepBy v s) (.sepBy v' s')
  | capture {g g'} (inner : SameShape swap g g') : SameShape swap (.capture g) (.capture g')
  | action {g g' act act'} (inner : SameShape swap g g') (swapped : swap act act') :
      SameShape swap (.action g act) (.action g' act')
  | optional {g g'} (inner : SameShape swap g g') : SameShape swap (.optional g) (.optional g')
  | label {g g'} (name) (inner : SameShape swap g g') :
      SameShape swap (.label name g) (.label name g')
  | rule (name) : SameShape swap (.rule name) (.rule name)
  | leaf (parser) : SameShape swap (.leaf parser) (.leaf parser)
  | wrapped {g g'} (shown) (inner : SameShape swap g g') :
      SameShape swap (.wrapped shown g) (.wrapped shown g')

inductive SameShapes (swap : Action → Action → Prop) : List Grammar → List Grammar → Prop
  | nil : SameShapes swap [] []
  | cons {g g' gs gs'} (head : SameShape swap g g') (tail : SameShapes swap gs gs') :
      SameShapes swap (g :: gs) (g' :: gs')

end

mutual

theorem SameShape.refl {swap : Action → Action → Prop} (kept : ∀ act, swap act act)
    (g : Grammar) : SameShape swap g g := by
  match g with
  | .literal token => exact .literal token
  | .char accepted => exact .char accepted
  | .whitespace => exact .whitespace
  | .endOfInput => exact .endOfInput
  | .sequence first others => exact .sequence (.refl kept first) (.refl kept others)
  | .choice first others => exact .choice (.refl kept first) (.refl kept others)
  | .many inner => exact .many (.refl kept inner)
  | .many1 inner => exact .many1 (.refl kept inner)
  | .sepBy value separator => exact .sepBy (.refl kept value) (.refl kept separator)
  | .capture inner => exact .capture (.refl kept inner)
  | .action inner act => exact .action (.refl kept inner) (kept act)
  | .optional inner => exact .optional (.refl kept inner)
  | .label name inner => exact .label name (.refl kept inner)
  | .rule name => exact .rule name
  | .leaf parser => exact .leaf parser
  | .wrapped shown inner => exact .wrapped shown (.refl kept inner)

theorem SameShapes.refl {swap : Action → Action → Prop} (kept : ∀ act, swap act act)
    (gs : List Grammar) : SameShapes swap gs gs := by
  match gs with
  | [] => exact .nil
  | g :: gs => exact .cons (.refl kept g) (.refl kept gs)

end

abbrev EachAction (kind : Action → Prop) (g : Grammar) : Prop := SameShape (fun act _ => kind act) g g

mutual

theorem SameShape.and {swap : Action → Action → Prop} {kind : Action → Prop} {g g' : Grammar}
    (same : SameShape swap g g') (each : EachAction kind g) :
    SameShape (fun act act' => swap act act' ∧ kind act) g g' := by
  match same with
  | .literal token => exact .literal token
  | .char accepted => exact .char accepted
  | .whitespace => exact .whitespace
  | .endOfInput => exact .endOfInput
  | .sequence first others =>
    cases each with | sequence first' others' => exact .sequence (first.and first') (others.and others')
  | .choice first others =>
    cases each with | choice first' others' => exact .choice (first.and first') (others.and others')
  | .many inner => cases each with | many inner' => exact .many (inner.and inner')
  | .many1 inner => cases each with | many1 inner' => exact .many1 (inner.and inner')
  | .sepBy value separator =>
    cases each with | sepBy value' separator' =>
      exact .sepBy (value.and value') (separator.and separator')
  | .capture inner => cases each with | capture inner' => exact .capture (inner.and inner')
  | .action inner swapped =>
    cases each with | action inner' known => exact .action (inner.and inner') ⟨swapped, known⟩
  | .optional inner => cases each with | optional inner' => exact .optional (inner.and inner')
  | .label name inner => cases each with | label _ inner' => exact .label name (inner.and inner')
  | .rule name => exact .rule name
  | .leaf parser => exact .leaf parser
  | .wrapped shown inner =>
    cases each with | wrapped _ inner' => exact .wrapped shown (inner.and inner')

theorem SameShapes.and {swap : Action → Action → Prop} {kind : Action → Prop} {gs gs' : List Grammar}
    (same : SameShapes swap gs gs') (each : SameShapes (fun act _ => kind act) gs gs) :
    SameShapes (fun act act' => swap act act' ∧ kind act) gs gs' := by
  match same with
  | .nil => exact .nil
  | .cons head tail =>
    cases each with | cons head' tail' => exact .cons (head.and head') (tail.and tail')

end

def SameRules (swap : Action → Action → Prop) : Rules → Rules → Prop :=
  List.Forall₂ fun a b => b.1 = a.1 ∧ SameShape swap a.2 b.2

theorem SameRules.lookup {swap : Action → Action → Prop} {rules rules' : Rules}
    (same : SameRules swap rules rules') (name : Text) :
    Option.Rel (fun g g' => rules.lookup name = some g ∧ SameShape swap g g')
      (rules.lookup name) (rules'.lookup name) := by
  induction same with
  | nil => exact .none
  | @cons a b rules rules' head tail ih =>
    obtain ⟨named, g⟩ := a
    obtain ⟨named', g'⟩ := b
    obtain ⟨rfl, shape⟩ := head
    simp only [List.lookup_cons]
    split
    · exact .some ⟨rfl, shape⟩
    · exact ih

theorem SameRules.and {swap : Action → Action → Prop} {kind : Action → Prop} {rules rules' : Rules}
    (same : SameRules swap rules rules') (each : SameRules (fun act _ => kind act) rules rules) :
    SameRules (fun act act' => swap act act' ∧ kind act) rules rules' := by
  induction same with
  | nil => exact .nil
  | cons head tail ih =>
    cases each with | cons head' tail' => exact .cons ⟨head.1, head.2.and head'.2⟩ (ih tail')

/-- Some action of the grammar, or of a rule it can call, stands outside every
capture. -/
inductive BareAction (rules : Rules) : Grammar → Prop
  | action {inner act} : BareAction rules (.action inner act)
  | sequence {first others g} (member : g ∈ first :: others) (bare : BareAction rules g) :
      BareAction rules (.sequence first others)
  | choice {first others g} (member : g ∈ first :: others) (bare : BareAction rules g) :
      BareAction rules (.choice first others)
  | many {inner} (bare : BareAction rules inner) : BareAction rules (.many inner)
  | many1 {inner} (bare : BareAction rules inner) : BareAction rules (.many1 inner)
  | sepByValue {value separator} (bare : BareAction rules value) :
      BareAction rules (.sepBy value separator)
  | sepBySeparator {value separator} (bare : BareAction rules separator) :
      BareAction rules (.sepBy value separator)
  | optional {inner} (bare : BareAction rules inner) : BareAction rules (.optional inner)
  | label {name inner} (bare : BareAction rules inner) : BareAction rules (.label name inner)
  | rule {name g} (known : rules.lookup name = some g) (bare : BareAction rules g) :
      BareAction rules (.rule name)
  | wrapped {shown inner} (bare : BareAction rules inner) : BareAction rules (.wrapped shown inner)

end Grammar

namespace Simulation

open Grammar Monitor

variable {m n : Type → Type} [Monitor m] [Monitor n] {S : Simulation m n}
variable {swap : Action → Action → Prop} {all : Prop} {rules : Rules} {whole : Text}
variable {call : Text → Parser m} {call' : Text → Parser n}

theorem Carries.imp {act act' : Action} (carries : S.Carries all all act act')
    {less exact : Prop} (given : all → less) (asked : exact → all) :
    S.Carries less exact act act' := by
  constructor
  intro _ _ _ _ _ input tree tree' equal later
  refine carries.behind input tree tree' (fun whole => equal (given whole)) fun new new' made => ?_
  exact later new new' fun wanted => made (asked wanted)

mutual

theorem grammar (heard : S.audible → all)
    (calls : ∀ name, S.Related (all ∨ ¬ BareAction rules (.rule name)) whole
      (call name) (call' name))
    (acts : ∀ act act', swap act act' → S.Carries all all act act')
    {g g' : Grammar} (same : SameShape swap g g') :
    S.Related (all ∨ ¬ BareAction rules g) whole (g.parser call) (g'.parser call') := by
  match same with
  | .literal token => exact literal _ _ token
  | .char accepted => exact char _ _ accepted
  | .whitespace => exact whitespace _ _
  | .endOfInput => exact endOfInput _ _
  | .sequence first others =>
    exact sequence <| .cons
      ((grammar heard calls acts first).weaken
        (Or.imp_right (mt (.sequence List.mem_cons_self))))
      (grammars heard calls acts others fun g member =>
        Or.imp_right (mt (.sequence (List.mem_cons_of_mem _ member))))
  | .choice first others =>
    exact choice <| .cons
      ((grammar heard calls acts first).weaken
        (Or.imp_right (mt (.choice List.mem_cons_self))))
      (grammars heard calls acts others fun g member =>
        Or.imp_right (mt (.choice (List.mem_cons_of_mem _ member))))
  | .many inner =>
    exact many ((grammar heard calls acts inner).weaken (Or.imp_right (mt .many)))
  | .many1 inner =>
    exact many1 ((grammar heard calls acts inner).weaken (Or.imp_right (mt .many1)))
  | .sepBy value separator =>
    exact sepBy (fun asked => .inl (heard asked))
      ((grammar heard calls acts value).weaken (Or.imp_right (mt .sepByValue)))
      ((grammar heard calls acts separator).weaken (Or.imp_right (mt .sepBySeparator)))
  | .capture inner => exact capture _ (grammar heard calls acts inner)
  | .action inner swapped =>
    refine action (grammar heard calls acts inner) ((acts _ _ swapped).imp .inl ?_)
    exact fun asked => asked.resolve_right fun hidden => hidden .action
  | .optional inner =>
    exact optional ((grammar heard calls acts inner).weaken (Or.imp_right (mt .optional)))
  | .label name inner =>
    exact label name ((grammar heard calls acts inner).weaken (Or.imp_right (mt .label)))
  | .rule name => exact calls name
  | .leaf parser => exact leaf _ _ parser
  | .wrapped shown inner =>
    exact (grammar heard calls acts inner).weaken (Or.imp_right (mt .wrapped))

theorem grammars (heard : S.audible → all)
    (calls : ∀ name, S.Related (all ∨ ¬ BareAction rules (.rule name)) whole
      (call name) (call' name))
    (acts : ∀ act act', swap act act' → S.Carries all all act act')
    {gs gs' : List Grammar} (same : SameShapes swap gs gs') {less : Prop}
    (fewer : ∀ g ∈ gs, less → all ∨ ¬ BareAction rules g) :
    List.Forall₂ (S.Related less whole) (parsers call gs) (parsers call' gs') := by
  match same with
  | .nil => exact .nil
  | .cons head tail =>
    exact .cons ((grammar heard calls acts head).weaken (fewer _ List.mem_cons_self))
      (grammars heard calls acts tail fun g member => fewer g (List.mem_cons_of_mem _ member))

end

theorem calls (heard : S.audible → all) (acts : ∀ act act', swap act act' → S.Carries all all act act')
    (stuck : ∀ {R : Option Match → Option Match → Prop}, S.Rel R unfinished unfinished)
    {find : Text → m (Option Grammar)} {find' : Text → n (Option Grammar)}
    (finds : ∀ name, S.Rel
      (Option.Rel fun g g' => rules.lookup name = some g ∧ SameShape swap g g')
      (find name) (find' name))
    (depth : Nat) (name : Text) :
    S.Related (all ∨ ¬ BareAction rules (.rule name)) whole
      (Grammar.call find depth name) (Grammar.call find' depth name) := by
  induction depth generalizing name with
  | zero => exact fun input _ => stuck
  | succ depth ih =>
    intro input inside
    refine after_option (finds name) (S.pure .none) fun g g' both => ?_
    obtain ⟨known, same⟩ := both
    exact ((grammar heard ih acts same).weaken (Or.imp_right (mt (.rule known)))) input inside

theorem same_grammar (acts : ∀ act tree, S.Rel Eq (apply act tree) (apply act tree))
    (calls : ∀ name, S.Related True whole (call name) (call' name)) (g : Grammar) :
    S.Related True whole (g.parser call) (g.parser call') := by
  have same : SameShape Eq g g := .refl (fun _ => rfl) g
  have acts' : ∀ act act', act = act' → S.Carries True True act act' := by
    intro act act' swapped
    obtain rfl := swapped
    refine .of_apply (fun _ => trivial) fun tree tree' equal => ?_
    obtain rfl := equal trivial
    exact S.imp (fun new new' made _ => made.symm) (acts act tree')
  have related : S.Related (True ∨ ¬ BareAction [] g) whole (g.parser call) (g.parser call') :=
    grammar (fun _ => trivial) (fun name => (calls name).weaken fun _ => trivial) acts' same
  exact related.weaken .inl

theorem same_calls (acts : ∀ act tree, S.Rel Eq (apply act tree) (apply act tree))
    (stuck : ∀ {R : Option Match → Option Match → Prop}, S.Rel R unfinished unfinished)
    {find : Text → m (Option Grammar)} {find' : Text → n (Option Grammar)}
    (finds : ∀ name, S.Rel Eq (find name) (find' name)) (depth : Nat) (name : Text) :
    S.Related True whole (Grammar.call find depth name) (Grammar.call find' depth name) := by
  induction depth generalizing name with
  | zero => exact fun input _ => stuck
  | succ depth ih =>
    intro input inside
    refine S.bind (finds name) fun g g' same => ?_
    obtain rfl := same
    cases g with
    | none => exact S.pure .none
    | some g => exact same_grammar acts ih g input inside

end Simulation
end Peg
