import Peg.Proofs.Transcript.Trace

/-!
Labels name what is traced and do nothing else. Without them a grammar parses the same and
reports the same; with them every event stands under the innermost label around it, and the
label in force before a parse is in force again after it.
-/
namespace Peg

open Trace Transcript.Part

namespace Grammar

mutual

def unlabelled : Grammar → Grammar
  | literal token => literal token
  | char accepted => char accepted
  | whitespace => whitespace
  | endOfInput => endOfInput
  | sequence first others => sequence first.unlabelled (unlabelledAll others)
  | choice first others => choice first.unlabelled (unlabelledAll others)
  | many inner => many inner.unlabelled
  | many1 inner => many1 inner.unlabelled
  | sepBy value separator => sepBy value.unlabelled separator.unlabelled
  | capture inner => capture inner.unlabelled
  | action inner act => action inner.unlabelled act
  | optional inner => optional inner.unlabelled
  | label _ inner => inner.unlabelled
  | rule name => rule name
  | leaf parser => leaf parser
  | wrapped shown inner => wrapped shown inner.unlabelled

def unlabelledAll : List Grammar → List Grammar
  | [] => []
  | g :: gs => g.unlabelled :: unlabelledAll gs

end

end Grammar

def Rules.unlabelled (rules : Rules) : Rules :=
  rules.map fun named => (named.1, named.2.unlabelled)

theorem Rules.lookup_unlabelled (rules : Rules) (name : Text) :
    rules.unlabelled.lookup name = (rules.lookup name).map Grammar.unlabelled := by
  induction rules with
  | nil => rfl
  | cons named rules ih =>
    obtain ⟨known, g⟩ := named
    show List.lookup name ((known, g.unlabelled) :: unlabelled rules) = _
    rw [List.lookup_cons, List.lookup_cons]
    cases name == known with
    | true => rfl
    | false => exact ih

theorem Rules.depth_unlabelled (rules : Rules) (input : Text) :
    rules.unlabelled.depth input = rules.depth input := by
  rw [depth, depth, unlabelled, List.length_map]

namespace Simulation

open Grammar Monitor

variable {m n : Type → Type} [Monitor m] [Monitor n] {S : Simulation m n} {whole : Text}
variable {call : Text → Parser m} {call' : Text → Parser n}

/-- A simulation to which a label on one side alone makes no difference. -/
def SkipsLabels (S : Simulation m n) : Prop :=
  ∀ {R : Option Match → Option Match → Prop} {x : m (Option Match)} {y : n (Option Match)}
    (name : Text), S.Rel R x y → S.Rel R (Monitor.within name x) y

mutual

theorem unlabelled_grammar (skips : S.SkipsLabels)
    (acts : ∀ act tree, S.Rel Eq (apply act tree) (apply act tree))
    (calls : ∀ name, S.Related True whole (call name) (call' name)) (g : Grammar) :
    S.Related True whole (g.parser call) (g.unlabelled.parser call') := by
  match g with
  | .literal token => exact literal _ _ token
  | .char accepted => exact char _ _ accepted
  | .whitespace => exact whitespace _ _
  | .endOfInput => exact endOfInput _ _
  | .sequence first others =>
    exact sequence (.cons (unlabelled_grammar skips acts calls first)
      (unlabelled_grammars skips acts calls others))
  | .choice first others =>
    exact choice (.cons (unlabelled_grammar skips acts calls first)
      (unlabelled_grammars skips acts calls others))
  | .many inner => exact many (unlabelled_grammar skips acts calls inner)
  | .many1 inner => exact many1 (unlabelled_grammar skips acts calls inner)
  | .sepBy value separator =>
    exact sepBy (fun _ => trivial) (unlabelled_grammar skips acts calls value)
      (unlabelled_grammar skips acts calls separator)
  | .capture inner => exact capture _ (unlabelled_grammar skips acts calls inner)
  | .action inner act =>
    refine action (unlabelled_grammar skips acts calls inner) (.of_apply (fun _ => trivial) ?_)
    intro tree tree' equal
    rw [equal trivial]
    exact S.imp (fun new new' made _ => made.symm) (acts act tree)
  | .optional inner => exact optional (unlabelled_grammar skips acts calls inner)
  | .label name inner =>
    exact fun input inside => skips name (unlabelled_grammar skips acts calls inner input inside)
  | .rule name => exact calls name
  | .leaf parser => exact leaf _ _ parser
  | .wrapped _ inner => exact unlabelled_grammar skips acts calls inner

theorem unlabelled_grammars (skips : S.SkipsLabels)
    (acts : ∀ act tree, S.Rel Eq (apply act tree) (apply act tree))
    (calls : ∀ name, S.Related True whole (call name) (call' name)) (gs : List Grammar) :
    List.Forall₂ (S.Related True whole) (parsers call gs) (parsers call' (unlabelledAll gs)) := by
  match gs with
  | [] => exact .nil
  | g :: gs =>
    exact .cons (unlabelled_grammar skips acts calls g) (unlabelled_grammars skips acts calls gs)

end

end Simulation

def relabelling : Simulation Transcript Transcript where
  Rel R x y := Outcome.Same R x.outcome y.outcome ∧ reportsOf x.parts = reportsOf y.parts
  audible := True
  pure := fun related => ⟨.done related, rfl⟩
  bind := by
    intro _ _ _ _ R S x y f g both later
    obtain ⟨outcome, parts⟩ := x
    obtain ⟨outcome', parts'⟩ := y
    obtain ⟨same, told⟩ := both
    cases same with
    | fault cause => exact ⟨.fault cause, told⟩
    | unfinished => exact ⟨.unfinished, told⟩
    | @done a b related =>
      obtain ⟨same', told'⟩ := later a b related
      rw [Transcript.bind_of_done rfl, Transcript.bind_of_done rfl]
      refine ⟨same', ?_⟩
      rw [reportsOf_append, reportsOf_append, told', ← told]
  imp := fun weaker both => ⟨both.1.imp weaker, both.2⟩
  note := fun heard => ⟨.done trivial, by rw [heard trivial]⟩
  within := by
    intro _ _ _ x y name both
    refine ⟨both.1, ?_⟩
    show reportsOf [.scope name x.parts] = reportsOf [.scope name y.parts]
    rw [reportsOf_scope, reportsOf_scope, both.2]

theorem relabelling_apply (act : Action) (tree : Option Tree) :
    relabelling.Rel Eq (Monitor.apply act tree) (Monitor.apply act tree) := by
  unfold Monitor.apply
  cases act tree with
  | ok new => exact ⟨.done rfl, rfl⟩
  | error cause => exact ⟨.fault cause, rfl⟩

theorem relabelling_skips : relabelling.SkipsLabels := by
  intro R x y name both
  refine ⟨both.1, ?_⟩
  show reportsOf [.scope name x.parts] = _
  rw [reportsOf_scope, both.2]

namespace Grammar

theorem transcript_unlabelled (rules : Rules) (g : Grammar) (whole : Text) :
    relabelling.Related True whole (g.transcript rules)
      (g.unlabelled.transcript rules.unlabelled) := by
  intro input _
  have calls (depth : Nat) (name : Text) : relabelling.Related True input
      (call (fun name => pure (rules.lookup name)) depth name)
      (call (fun name => pure (rules.unlabelled.lookup name)) depth name) := by
    induction depth generalizing name with
    | zero => exact fun _ _ => ⟨.unfinished, rfl⟩
    | succ depth ih =>
      intro text inside
      rw [call, call, Rules.lookup_unlabelled]
      cases rules.lookup name with
      | none => exact relabelling.pure .none
      | some body =>
        exact Simulation.unlabelled_grammar relabelling_skips relabelling_apply ih body text inside
  rw [transcript, transcript, Rules.depth_unlabelled]
  exact Simulation.unlabelled_grammar relabelling_skips relabelling_apply (calls _) g input
    List.suffix_rfl

/-- What labels do to a traced run that starts in `state`: it ends as the run without them,
its reports are the same, each stands under the innermost label around it, and the label in
force is the one it started with. -/
structure Labelled (level : Level) (state : State) (transcript : Transcript (Option Match))
    (bare ending : Ending (Option Match)) : Prop where
  outcome : ending.outcome = bare.outcome
  reports : ending.events.map (·.report) = bare.events.map (·.report)
  events : ending.events = if level = .trace then transcript.events state.label else []
  label : ending.state.label = state.label

theorem Labelled.of_related {rules rules' : Rules} {run bare : Run (Option Match)}
    {transcript transcript' : Transcript (Option Match)} {state other : State}
    (kept : (keeping rules).Rel Eq run transcript) (kept' : (keeping rules').Rel Eq bare transcript')
    (same : relabelling.Rel Eq transcript transcript') (follows : state.Follows rules)
    (follows' : other.Follows rules') (level : Level) :
    Labelled level state transcript (bare level other) (run level state) := by
  have left := kept level state follows
  have right := kept' level other follows'
  refine ⟨?_, ?_, left.events, left.label⟩
  · rw [left.outcome.eq, right.outcome.eq, same.1.eq]
  · rw [left.events, right.events]
    split
    · rw [Transcript.events, Transcript.events, eventsOf_reports, eventsOf_reports, same.2]
    · rfl

variable {rules : Rules} {state bare : State}

theorem trace_labelled (follows : state.Follows rules) (follows' : bare.Follows rules.unlabelled)
    (g : Grammar) (input : Text) (level : Level) :
    Labelled level state (g.transcript rules input)
      (g.unlabelled.trace rules.unlabelled input level bare) (g.trace rules input level state) :=
  .of_related (trace_keeps _ _ input) (trace_keeps _ _ input)
    (relabelling.imp (fun _ _ => Match.Alike.option_eq)
      (transcript_unlabelled rules g input input List.suffix_rfl)) follows follows' level

theorem traceComplete_labelled (follows : state.Follows rules)
    (follows' : bare.Follows rules.unlabelled) (g : Grammar) (input : Text) (level : Level) :
    Labelled level state (g.transcriptComplete rules input)
      (g.unlabelled.traceComplete rules.unlabelled input level bare)
      (g.traceComplete rules input level state) :=
  .of_related (traceComplete_keeps _ _ input) (traceComplete_keeps _ _ input)
    (relabelling.imp (fun _ _ => Match.Alike.option_eq)
      (Simulation.complete (transcript_unlabelled rules g input) input List.suffix_rfl))
    follows follows' level

theorem bind_events {α β : Type} {x : Run α} {level : Level} {value : α}
    (ended : (x level state).outcome = .done value) (next : α → Run β) :
    ((x >>= next) level state).events =
      (x level state).events ++ (next value level (x level state).state).events := by
  show ((x.bind next) level state).events = _
  simp only [Run.bind, ended]

/-- The reports of a capture, an action and a complete parse: they stand behind those of the
part, under the label around the whole. -/
structure ReportsBehind (part : Parser Run) (input : Text) (state : State) (found : Match) :
    Prop where
  capture : (Parser.capture part input .trace state).events = (part input .trace state).events ++
    [⟨state.label, ⟨.capture, .words [], input, .matched found.parsed⟩⟩]
  action : ∀ act tree, act found.tree = .ok tree →
    (Parser.action part act input .trace state).events = (part input .trace state).events ++
      [⟨state.label, ⟨.action, .words [], input, .made tree⟩⟩]
  complete : found.rest ≠ [] →
    (Parser.complete part input .trace state).events = (part input .trace state).events ++
      [⟨state.label, ⟨.complete, .words "unconsumed input".toList, found.rest, .failed⟩⟩]

theorem reportsBehind {part : Parser Run} {input : Text} {found : Match}
    (restored : (part input .trace state).state.label = state.label)
    (ended : (part input .trace state).outcome = .done (some found)) :
    ReportsBehind part input state found where
  capture := by
    refine (bind_events ended _).trans ?_
    rw [← restored]
    rfl
  action := by
    intro act tree made
    refine (bind_events ended _).trans ?_
    simp only [Monitor.apply, made]
    rw [← restored]
    rfl
  complete := by
    intro left
    refine (bind_events ended _).trans ?_
    simp only [List.isEmpty_iff, left, if_false]
    rw [← restored]
    rfl

/-- Labels change nothing but the names that events stand under. With and without them a
parse ends the same and reports the same; each event stands under the innermost label around
it, what is reported behind a part under the label around both; and no label outlasts its
parse, however that ends. -/
theorem labels_scoped (follows : state.Follows rules) (follows' : bare.Follows rules.unlabelled)
    (g : Grammar) (input : Text) (level : Level) :
    Labelled level state (g.transcript rules input)
      (g.unlabelled.trace rules.unlabelled input level bare) (g.trace rules input level state) ∧
    Labelled level state (g.transcriptComplete rules input)
      (g.unlabelled.traceComplete rules.unlabelled input level bare)
      (g.traceComplete rules input level state) ∧
    ∀ depth found, (g.traceAt rules depth input .trace state).outcome = .done (some found) →
      ReportsBehind (g.traceAt rules depth) input state found := by
  refine ⟨trace_labelled follows follows' g input level,
    traceComplete_labelled follows follows' g input level, fun depth found ended => ?_⟩
  have kept := traceAt_related rules g depth input input List.suffix_rfl .trace state follows
  exact reportsBehind kept.label ended

def pairRules : Rules := [(['n'], label ['i'] (token "a"))]

def pair : Grammar := label ['o'] (sequence (capture (rule ['n'])) [token ";"])

def pairState : State := ⟨['s'], pairRules⟩

theorem pair_labels_scoped :
    (pairState.Follows pairRules ∧ State.fresh.Follows pairRules.unlabelled) ∧
    (pair.trace pairRules "a;b".toList .trace pairState).events.map (·.label) =
      [['o'], ['i'], ['i'], ['o'], ['o'], ['o'], ['o']] ∧
    (pair.trace pairRules "a;b".toList .trace pairState).events.map (·.report) =
      (pair.unlabelled.trace pairRules.unlabelled "a;b".toList .trace .fresh).events.map (·.report) ∧
    (pair.trace pairRules "a;b".toList .trace pairState).state.label = ['s'] ∧
    ReportsBehind (pair.traceAt pairRules 1) "a;b".toList pairState
      ⟨"a;".toList, ['b'], some (.list [.text ['a'], .text [';']])⟩ := by
  have follows : pairState.Follows pairRules := fun _ _ built => built
  have follows' := State.fresh_follows pairRules.unlabelled
  obtain ⟨plain, -, behind⟩ := labels_scoped follows follows' pair "a;b".toList .trace
  refine ⟨⟨follows, follows'⟩, ?_, plain.reports, plain.label, behind 1 _ rfl⟩
  rw [plain.events]
  rfl

end Grammar
end Peg
