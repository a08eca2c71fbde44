import Peg.Proofs.Derivation.Sound
import Peg.Proofs.Leaves

/-!
Laws of sequence and ordered choice. A choice among the candidates of a choice may list its
candidates in its place, and a sequence at a place of a sequence its parts. What stands in front of
a choice at the end of a sequence may be put in front of each of its candidates.
-/
namespace Peg

open Monitor Outcome

namespace Outcome

variable {α β γ : Type}

/-- What comes of going on from a match; without one there is none. -/
def andThen (x : Outcome (Option α)) (next : α → Outcome (Option β)) : Outcome (Option β) :=
  x >>= fun result => result.elim (.done none) next

def orElse (x y : Outcome (Option α)) : Outcome (Option α) :=
  x >>= fun result => result.elim y fun value => .done (some value)

theorem some_andThen (value : α) (next : α → Outcome (Option β)) :
    (done (some value)).andThen next = next value := rfl

theorem andThen_congr {x : Outcome (Option α)} {f g : α → Outcome (Option β)}
    (same : ∀ value, x = .done (some value) → f value = g value) : x.andThen f = x.andThen g := by
  rcases x with (_ | value) | _ | _ | _
  · rfl
  · exact same value rfl
  all_goals rfl

theorem map_andThen (x : Outcome (Option α)) (f : α → Outcome (Option β)) (g : β → γ) :
    Option.map g <$> x.andThen f = x.andThen fun value => Option.map g <$> f value := by
  rcases x with (_ | _) | _ | _ | _ <;> rfl

theorem andThen_assoc (x : Outcome (Option α)) (f : α → Outcome (Option β))
    (g : β → Outcome (Option γ)) :
    (x.andThen f).andThen g = x.andThen fun value => (f value).andThen g := by
  rcases x with (_ | _) | _ | _ | _ <;> rfl

theorem orElse_assoc (x y z : Outcome (Option α)) :
    (x.orElse y).orElse z = x.orElse (y.orElse z) := by
  rcases x with (_ | _) | _ | _ | _ <;> rfl

theorem orElse_none (x : Outcome (Option α)) : x.orElse (.done none) = x := by
  rcases x with (_ | _) | _ | _ | _ <;> rfl

theorem andThen_orElse (x : Outcome (Option α)) (f g : α → Outcome (Option β)) :
    (x.andThen fun value => (f value).orElse (g value)) = (x.andThen f).orElse (x.andThen g) := by
  rcases x with (_ | _) | _ | _ | _ <;> rfl

theorem orElse_andThen (x y : Outcome (Option α)) {f : α → Outcome (Option β)}
    (goes : ∀ value, f value ≠ .done none) :
    (x.orElse y).andThen f = (x.andThen f).orElse (y.andThen f) := by
  rcases x with (_ | value) | _ | _ | _
  · rfl
  · change f value = (f value).orElse (y.andThen f)
    rcases same : f value with (_ | _) | _ | _ | _
    · exact absurd same (goes value)
    all_goals rfl
  all_goals rfl

end Outcome

namespace Parser

theorem choice_eq (ps : List (Parser Outcome)) (input : Text) (index : Nat) :
    choice ps input = Option.map Prod.snd <$> firstMatch input ps index := by
  have shifted : Option.map Prod.snd <$> firstMatch input ps 0 =
      Option.map Prod.snd <$> firstMatch input ps index := by
    generalize 0 = start
    induction ps generalizing start index with
    | nil => rfl
    | cons p ps ih =>
      simp only [firstMatch]
      rcases p input with (_ | _) | _ | _ | _
      · exact ih (index + 1) (start + 1)
      all_goals rfl
  rw [← shifted, choice]
  rcases firstMatch input ps 0 with (_ | _) | _ | _ | _ <;> rfl

theorem choice_nil (input : Text) : choice [] input = (.done none : Outcome (Option Match)) := rfl

theorem choice_cons (p : Parser Outcome) (ps : List (Parser Outcome)) (input : Text) :
    choice (p :: ps) input = (p input).orElse (choice ps input) := by
  rw [choice_eq (p :: ps) input 0, firstMatch]
  rcases p input with (_ | _) | _ | _ | _
  · exact (choice_eq ps input 1).symm
  all_goals rfl

theorem choice_append (ps qs : List (Parser Outcome)) (input : Text) :
    choice (ps ++ qs) input = (choice ps input).orElse (choice qs input) := by
  induction ps with
  | nil => rfl
  | cons p ps ih => rw [List.cons_append, choice_cons, choice_cons, ih, orElse_assoc]

theorem choice_nested (ps qs rs : List (Parser Outcome)) (input : Text) :
    choice (ps ++ choice qs :: rs) input = choice (ps ++ (qs ++ rs)) input := by
  rw [choice_append, choice_cons, choice_append, choice_append]

def gathered (input : Text) (part : List Tree × Text) : Outcome (Option Match) := do
  let parsed ← consumed input part.2
  pure (some ⟨parsed, part.2, some (.list part.1)⟩)

theorem gathered_ne_none (input : Text) (part : List Tree × Text) :
    gathered input part ≠ .done none := by
  unfold gathered consumed
  split <;> exact nofun

theorem gathered_flattened {trees trees' : List Tree} {input rest : Text}
    (same : (Tree.list trees).flatten = (Tree.list trees').flatten) :
    Option.map Match.flattened <$> gathered input (trees, rest) =
      Option.map Match.flattened <$> gathered input (trees', rest) := by
  unfold gathered
  rcases (consumed input rest : Outcome Text) with _ | _ | _ | _
  · simp [Match.flattened, same]
  all_goals rfl

theorem chain_nil (input : Text) :
    chain [] input = (.done (some ([], input)) : Outcome (Option (List Tree × Text))) := rfl

theorem chain_cons (p : Parser Outcome) (ps : List (Parser Outcome)) (input : Text) :
    chain (p :: ps) input = (p input).andThen fun found =>
      (chain ps found.rest).andThen fun part => .done (some (found.tree.toList ++ part.1, part.2)) := by
  rw [chain]
  rcases p input with (_ | found) | _ | _ | _
  · rfl
  · change _ = (chain ps found.rest).andThen _
    simp only [done_bind]
    rcases chain ps found.rest with (_ | _) | _ | _ | _ <;> rfl
  all_goals rfl

theorem chain_append (ps qs : List (Parser Outcome)) (input : Text) :
    chain (ps ++ qs) input = (chain ps input).andThen fun part =>
      (chain qs part.2).andThen fun later => .done (some (part.1 ++ later.1, later.2)) := by
  induction ps generalizing input with
  | nil =>
    change chain qs input = (chain qs input).andThen fun later => .done (some ([] ++ later.1, later.2))
    rcases chain qs input with (_ | _) | _ | _ | _ <;> rfl
  | cons p ps ih =>
    simp only [List.cons_append, chain_cons, ih, andThen_assoc, some_andThen, List.append_assoc]

theorem sequence_eq (ps : List (Parser Outcome)) (input : Text) :
    sequence ps input = (chain ps input).andThen (gathered input) := by
  unfold sequence
  rcases chain ps input with (_ | _) | _ | _ | _ <;> rfl

theorem sequence_choice (ps : List (Parser Outcome)) (q : Parser Outcome)
    (qs : List (Parser Outcome)) (input : Text) :
    sequence (ps ++ [choice (q :: qs)]) input =
      choice ((q :: qs).map fun q => sequence (ps ++ [q])) input := by
  have last (p : Parser Outcome) : sequence (ps ++ [p]) input = (chain ps input).andThen fun part =>
      (p part.2).andThen fun found => gathered input (part.1 ++ found.tree.toList, found.rest) := by
    rw [sequence_eq, chain_append]
    simp only [chain_cons, chain_nil, andThen_assoc, some_andThen, List.append_nil]
  induction qs generalizing q with
  | nil =>
    rw [List.map_singleton, choice_cons, choice_nil, orElse_none, last, last]
    simp only [choice_cons, choice_nil, orElse_none]
  | cons next qs ih =>
    have rest := last (choice (next :: qs))
    rw [List.map_cons, choice_cons, ← ih next, rest, last, last, ← andThen_orElse]
    congr 1
    funext part
    rw [choice_cons, orElse_andThen]
    exact fun found => gathered_ne_none _ _

/-- A sequence at a place of a sequence has its parts run there. Their trees, which have a list
of their own, are the same leaves in the same order. -/
theorem sequence_nested (ps qs rs : List (Parser Outcome)) (input : Text)
    (splits : ∀ text part, chain qs text = .done (some part) → ∃ front, front ++ part.2 = text) :
    Option.map Match.flattened <$> sequence (ps ++ sequence qs :: rs) input =
      Option.map Match.flattened <$> sequence (ps ++ (qs ++ rs)) input := by
  simp only [sequence_eq, chain_append, chain_cons, andThen_assoc, map_andThen, some_andThen]
  refine andThen_congr fun before _ => andThen_congr fun inner ran => ?_
  obtain ⟨front, split⟩ := splits before.2 inner ran
  have closed : gathered before.2 inner =
      .done (some ⟨front, inner.2, some (.list inner.1)⟩) := by
    rw [gathered, ← split, consumed_append]
    rfl
  rw [closed, some_andThen]
  refine andThen_congr fun later _ => gathered_flattened ?_
  simp [Tree.flatten_eq_leaves, Tree.leaves, Tree.leavesOf_eq_flatMap]

end Parser

namespace Grammar

theorem parsers_append {m : Type → Type} [Monitor m] (call : Text → Parser m)
    (gs hs : List Grammar) : parsers call (gs ++ hs) = parsers call gs ++ parsers call hs := by
  induction gs with
  | nil => rfl
  | cons g gs ih => rw [List.cons_append, parsers, ih]; rfl

variable {rules : Rules} {gs : List Grammar}

theorem chain_splits {depth : Nat} {text : Text} {part : List Tree × Text}
    (ran : Parser.chain (parsers (rules.calls depth) gs) text = .done (some part)) :
    ∃ front, front ++ part.2 = text := by
  have explained := explained_all (rules.explains_calls depth) gs
  rcases Explains.chain explained text with stuck | ⟨outcome, derived, same⟩
  · rw [ran] at stuck
    cases stuck
  · rw [ran] at same
    rcases derived.consecutive.elim with ⟨_ | row, rfl, consecutive⟩ | ⟨cause, rfl⟩ <;> cases same
    exact ⟨_, (consecutive row rfl).splits⟩

theorem exists_sequence? (nonempty : gs ≠ []) :
    ∃ g, sequence? gs = .ok g ∧
      ∀ call : Text → Parser Outcome, g.parser call = Parser.sequence (parsers call gs) := by
  obtain ⟨first, others, rfl⟩ := List.exists_cons_of_ne_nil nonempty
  exact ⟨sequence first others, rfl, fun call => rfl⟩

theorem exists_choice? (nonempty : gs ≠ []) :
    ∃ g, choice? gs = .ok g ∧
      ∀ call : Text → Parser Outcome, g.parser call = Parser.choice (parsers call gs) := by
  obtain ⟨first, others, rfl⟩ := List.exists_cons_of_ne_nil nonempty
  exact ⟨choice first others, rfl, fun call => rfl⟩

theorem exists_sequences? (before gs : List Grammar) :
    ∃ candidates, gs.mapM (fun g => sequence? (before ++ [g])) = .ok candidates ∧
      ∀ call : Text → Parser Outcome, parsers call candidates =
        (parsers call gs).map fun p => Parser.sequence (parsers call before ++ [p]) := by
  induction gs with
  | nil => exact ⟨[], rfl, fun call => rfl⟩
  | cons g gs ih =>
    obtain ⟨candidates, built, runs⟩ := ih
    have some : before ++ [g] ≠ [] := List.append_ne_nil_of_right_ne_nil before (List.cons_ne_nil g [])
    obtain ⟨candidate, here, ran⟩ := exists_sequence? some
    refine ⟨candidate :: candidates, ?_, fun call => ?_⟩
    · rw [List.mapM_cons, here, built]
      rfl
    · rw [parsers, parsers, List.map_cons, runs, ran, parsers_append]
      rfl

section

variable (rules : Rules) (xs zs : List Grammar) (y : Grammar) (ys : List Grammar) (input : Text)

theorem choice_of_choice : ∃ nested listed, choice? (xs ++ choice y ys :: zs) = .ok nested ∧
    choice? (xs ++ (y :: ys ++ zs)) = .ok listed ∧
    nested.parse rules input = listed.parse rules input := by
  obtain ⟨nested, built, runs⟩ := exists_choice?
    (List.append_ne_nil_of_right_ne_nil xs (List.cons_ne_nil (choice y ys) zs))
  obtain ⟨listed, built', runs'⟩ := exists_choice?
    (List.append_ne_nil_of_right_ne_nil xs (List.cons_ne_nil y (ys ++ zs)))
  refine ⟨nested, listed, built, built', ?_⟩
  rw [parse_eq, parse_eq, runs, runs', parsers_append]
  generalize rules.calls (rules.depth input) = call
  have law := Parser.choice_nested (parsers call xs) (parsers call (y :: ys)) (parsers call zs) input
  rwa [← parsers_append, ← parsers_append] at law

theorem sequence_to_choice : ∃ late candidates early, sequence? (xs ++ [choice y ys]) = .ok late ∧
    (y :: ys).mapM (fun g => sequence? (xs ++ [g])) = .ok candidates ∧
    choice? candidates = .ok early ∧ late.parse rules input = early.parse rules input := by
  obtain ⟨late, built, runs⟩ := exists_sequence?
    (List.append_ne_nil_of_right_ne_nil xs (List.cons_ne_nil (choice y ys) []))
  obtain ⟨candidates, built', runs'⟩ := exists_sequences? xs (y :: ys)
  have some : candidates ≠ [] := by
    rintro rfl
    exact absurd (runs' (rules.calls 0)) nofun
  obtain ⟨early, built'', runs''⟩ := exists_choice? some
  refine ⟨late, candidates, early, built, built', built'', ?_⟩
  rw [parse_eq, parse_eq, runs, runs'', runs', parsers_append]
  exact Parser.sequence_choice _ _ _ input

theorem sequence_of_sequence : ∃ nested listed, sequence? (xs ++ sequence y ys :: zs) = .ok nested ∧
    sequence? (xs ++ (y :: ys ++ zs)) = .ok listed ∧
    Option.map Match.flattened <$> nested.parse rules input =
      Option.map Match.flattened <$> listed.parse rules input := by
  obtain ⟨nested, built, runs⟩ := exists_sequence?
    (List.append_ne_nil_of_right_ne_nil xs (List.cons_ne_nil (sequence y ys) zs))
  obtain ⟨listed, built', runs'⟩ := exists_sequence?
    (List.append_ne_nil_of_right_ne_nil xs (List.cons_ne_nil y (ys ++ zs)))
  refine ⟨nested, listed, built, built', ?_⟩
  rw [parse_eq, parse_eq, runs, runs', parsers_append]
  generalize deep : rules.calls (rules.depth input) = call
  have law := Parser.sequence_nested (parsers call xs) (parsers call (y :: ys)) (parsers call zs)
    input fun text part ran => chain_splits (deep ▸ ran)
  rwa [← parsers_append, ← parsers_append] at law

/-- On every text: a choice may list the candidates of a choice among its own; a choice at the end
of a sequence may be made between sequences; and a sequence may list the parts of a sequence among
its own, which comes to the same end with a tree that is the same once it is flattened. -/
theorem sequence_choice_laws :
    (∃ nested listed, choice? (xs ++ choice y ys :: zs) = .ok nested ∧
      choice? (xs ++ (y :: ys ++ zs)) = .ok listed ∧
      nested.parse rules input = listed.parse rules input) ∧
    (∃ late candidates early, sequence? (xs ++ [choice y ys]) = .ok late ∧
      (y :: ys).mapM (fun g => sequence? (xs ++ [g])) = .ok candidates ∧
      choice? candidates = .ok early ∧ late.parse rules input = early.parse rules input) ∧
    ∃ nested listed, sequence? (xs ++ sequence y ys :: zs) = .ok nested ∧
      sequence? (xs ++ (y :: ys ++ zs)) = .ok listed ∧
      Option.map Match.flattened <$> nested.parse rules input =
        Option.map Match.flattened <$> listed.parse rules input := by
  refine ⟨?_, ?_, ?_⟩
  · exact choice_of_choice rules xs zs y ys input
  · exact sequence_to_choice rules xs y ys input
  · exact sequence_of_sequence rules xs zs y ys input

end

end Grammar
end Peg
