import Peg.Proofs.Derivation.Adequacy

/-!
Rows of matches and the one match made of them. A text has one derivable end for
each grammar, so that a match tells how it was derived; a repetition and a captured
sequence tell no more of a row than what it consumed and what it left.
-/
namespace Peg

open Grammar Outcome

variable {rules : Rules}

theorem Derives.unique {g : Grammar} {input : Text} {one other : Outcome (Option Match)}
    (first : Derives rules g input one) (second : Derives rules g input other) : one = other := by
  rw [← parse_eq_of_derives first, ← parse_eq_of_derives second]

theorem Grammar.derives_of_done {g : Grammar} {input : Text} {result : Option Match}
    (ran : g.parse rules input = .done result) : Derives rules g input (.done result) := by
  have finished : g.parse rules input ≠ .unfinished := by
    rw [ran]
    exact nofun
  rw [← ran]
  exact derives_parse finished

theorem Derives.many_of_rounds {g : Grammar} {input : Text} {row : List Match}
    (rounds : DerivesRepetition rules g input (.done row)) :
    Derives rules (.many g) input (.done (some ⟨row.flatMap (·.parsed), Match.after input row,
      if row = [] then none else some (.list (row.filterMap (·.tree)))⟩)) := by
  cases row with
  | nil => exact .manyNone rounds
  | cons found row => exact .many rounds

theorem Match.Consecutive.after_eq {text rest : Text} {row : List Match}
    (consecutive : Consecutive (text ++ rest) row) (parsed : row.flatMap (·.parsed) = text) :
    after (text ++ rest) row = rest := by
  have splits := consecutive.splits
  rw [parsed] at splits
  exact List.append_cancel_left splits

theorem Derives.capture_row {first : Grammar} {others : List Grammar} {text rest : Text}
    {row : List Match} (parts : DerivesRow rules (first :: others) (text ++ rest) (.done (some row)))
    (parsed : row.flatMap (·.parsed) = text) :
    Derives rules (.capture (.sequence first others)) (text ++ rest)
      (.done (some ⟨text, rest, Match.captured text⟩)) := by
  have left := (parts.consecutive row rfl).after_eq parsed
  have derived := Derives.capture (.sequence parts)
  rwa [Match.joined, parsed, left] at derived

section

variable {token : Text}

theorem derives_silent (nonempty : token ≠ []) (rest : Text) :
    Derives rules (silent (.literal token)) (token ++ rest) (.done (some ⟨token, rest, none⟩)) :=
  .action (.token token rest nonempty) rfl

theorem derives_silent_fails {input : Text} (differs : ¬ token <+: input) :
    Derives rules (silent (.literal token)) input (.done none) :=
  .actionFails (.tokenFails token input differs)

end

section

variable {input : Text} {found : Match}

theorem Derives.rest_length_le {g : Grammar}
    (derived : Derives rules g input (.done (some found))) : found.rest.length ≤ input.length := by
  rw [← splits_matched.mp derived.splits, List.length_append]
  exact Nat.le_add_left _ _

theorem Derives.token_matched {token : Text} (nonempty : token ≠ [])
    (derived : Derives rules (.literal token) input (.done (some found))) :
    token ++ found.rest = input ∧ found.parsed = token ∧ found.tree = some (.text token) := by
  cases derived with
  | emptyToken => exact absurd rfl nonempty
  | token => exact ⟨rfl, rfl, rfl⟩

theorem Derives.char_matched {accepted : CharClass}
    (derived : Derives rules (.char accepted) input (.done (some found))) :
    ∃ c, accepted.accepts c = true ∧ c :: found.rest = input ∧ found.parsed = [c] ∧
      found.tree = some (.text [c]) := by
  cases derived with
  | char _ c _ accepts => exact ⟨c, accepts, rfl, rfl, rfl⟩

theorem Derives.sequence_matched {first : Grammar} {others : List Grammar}
    (derived : Derives rules (.sequence first others) input (.done (some found))) :
    ∃ row, DerivesRow rules (first :: others) input (.done (some row)) ∧
      found = Match.joined input row := by
  cases derived with
  | sequence parts => exact ⟨_, parts, rfl⟩

theorem DerivesRow.cons_matched {g : Grammar} {gs : List Grammar} {row : List Match}
    (derived : DerivesRow rules (g :: gs) input (.done (some row))) :
    ∃ found tail, row = found :: tail ∧ Derives rules g input (.done (some found)) ∧
      DerivesRow rules gs found.rest (.done (some tail)) := by
  cases derived with
  | cons head tail => exact ⟨_, _, rfl, head, tail⟩

theorem DerivesRow.nil_matched {row : List Match}
    (derived : DerivesRow rules [] input (.done (some row))) : row = [] := by
  cases derived
  rfl

theorem Derives.action_matched {inner : Grammar} {act : Action}
    (derived : Derives rules (.action inner act) input (.done (some found))) :
    ∃ inside, Derives rules inner input (.done (some inside)) ∧ act inside.tree = .ok found.tree ∧
      found.parsed = inside.parsed ∧ found.rest = inside.rest := by
  cases derived with
  | action inside acts => exact ⟨_, inside, acts, rfl, rfl⟩

theorem Derives.silent_matched {token : Text} (nonempty : token ≠ [])
    (derived : Derives rules (silent (.literal token)) input (.done (some found))) :
    token ++ found.rest = input ∧ found.parsed = token ∧ found.tree = none := by
  obtain ⟨inside, matched, acts, parsed, rest⟩ := derived.action_matched
  obtain ⟨splits, same, -⟩ := matched.token_matched nonempty
  rw [parsed, rest]
  exact ⟨splits, same, (Except.ok.inj acts).symm⟩

end

end Peg
