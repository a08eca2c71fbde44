import Peg.Grammar.Parse

/-!
What a grammar means, without loops, depths or monitors. Five judgments are
defined together: a grammar on a text, grammars in a row, candidates in order,
repetition, and separators with values. They derive a match, no match or a
fault, and nothing else; every match of a row starts where the one before it
ended.
-/
namespace Peg

def Match.after (input : Text) : List Match → Text
  | [] => input
  | found :: row => after found.rest row

/-- Matches in a row as one. Its tree lists the trees of those that have one. -/
def Match.joined (input : Text) (row : List Match) : Match :=
  ⟨row.flatMap (·.parsed), after input row, some (.list (row.filterMap (·.tree)))⟩

theorem Match.trees_cons (found : Match) (row : List Match) :
    (found :: row).filterMap (·.tree) = found.tree.toList ++ row.filterMap (·.tree) := by
  cases same : found.tree <;> simp [same]

def Match.captured (parsed : Text) : Option Tree :=
  if parsed = [] then none else some (.text parsed)

mutual

/-- The end of a parse of one text by a grammar. -/
inductive Derives (rules : Rules) : Grammar → Text → Outcome (Option Match) → Prop
  | emptyToken (input) : Derives rules (.literal []) input (.done (some (.empty input)))
  | token (token rest) (nonempty : token ≠ []) :
      Derives rules (.literal token) (token ++ rest)
        (.done (some ⟨token, rest, some (.text token)⟩))
  | tokenFails (token input) (differs : ¬ token <+: input) :
      Derives rules (.literal token) input (.done none)
  | char (accepted c rest) (accepts : CharClass.accepts accepted c = true) :
      Derives rules (.char accepted) (c :: rest) (.done (some ⟨[c], rest, some (.text [c])⟩))
  | charFails (accepted c rest) (refuses : CharClass.accepts accepted c = false) :
      Derives rules (.char accepted) (c :: rest) (.done none)
  | charAtEnd (accepted) : Derives rules (.char accepted) [] (.done none)
  | whitespace (blanks rest) (blank : ∀ c ∈ blanks, Text.isBlank c = true)
      (ends : ∀ c ∈ rest.head?, Text.isBlank c = false) :
      Derives rules .whitespace (blanks ++ rest) (.done (some ⟨blanks, rest, none⟩))
  | endOfInput : Derives rules .endOfInput [] (.done (some (.empty [])))
  | endOfInputFails (c rest) : Derives rules .endOfInput (c :: rest) (.done none)
  | leaf (parser : Leaf) (input) : Derives rules (.leaf parser) input (.done (parser.run input))
  | sequence {first others input row}
      (parts : DerivesRow rules (first :: others) input (.done (some row))) :
      Derives rules (.sequence first others) input (.done (some (Match.joined input row)))
  | sequenceFails {first others input}
      (parts : DerivesRow rules (first :: others) input (.done none)) :
      Derives rules (.sequence first others) input (.done none)
  | sequenceFaults {first others input cause}
      (parts : DerivesRow rules (first :: others) input (.fault cause)) :
      Derives rules (.sequence first others) input (.fault cause)
  | choice {first others input outcome}
      (candidates : DerivesChoice rules (first :: others) input outcome) :
      Derives rules (.choice first others) input outcome
  | manyNone {inner input} (rounds : DerivesRepetition rules inner input (.done [])) :
      Derives rules (.many inner) input (.done (some (.empty input)))
  | many {inner input found row}
      (rounds : DerivesRepetition rules inner input (.done (found :: row))) :
      Derives rules (.many inner) input (.done (some (Match.joined input (found :: row))))
  | manyFaults {inner input cause} (rounds : DerivesRepetition rules inner input (.fault cause)) :
      Derives rules (.many inner) input (.fault cause)
  | many1Fails {inner input} (rounds : DerivesRepetition rules inner input (.done [])) :
      Derives rules (.many1 inner) input (.done none)
  | many1 {inner input found row}
      (rounds : DerivesRepetition rules inner input (.done (found :: row))) :
      Derives rules (.many1 inner) input (.done (some (Match.joined input (found :: row))))
  | many1Faults {inner input cause}
      (rounds : DerivesRepetition rules inner input (.fault cause)) :
      Derives rules (.many1 inner) input (.fault cause)
  | sepByNone {value separator input} (first : Derives rules value input (.done none)) :
      Derives rules (.sepBy value separator) input (.done (some (.empty input)))
  | sepByFaults {value separator input cause} (first : Derives rules value input (.fault cause)) :
      Derives rules (.sepBy value separator) input (.fault cause)
  | sepBy {value separator input item row}
      (first : Derives rules value input (.done (some item)))
      (later : DerivesPairs rules value separator item.rest (.done row)) :
      Derives rules (.sepBy value separator) input
        (.done (some (Match.joined input (item :: row))))
  | sepByPairFaults {value separator input item cause}
      (first : Derives rules value input (.done (some item)))
      (later : DerivesPairs rules value separator item.rest (.fault cause)) :
      Derives rules (.sepBy value separator) input (.fault cause)
  | capture {inner input found} (inside : Derives rules inner input (.done (some found))) :
      Derives rules (.capture inner) input
        (.done (some { found with tree := Match.captured found.parsed }))
  | captureFails {inner input} (inside : Derives rules inner input (.done none)) :
      Derives rules (.capture inner) input (.done none)
  | captureFaults {inner input cause} (inside : Derives rules inner input (.fault cause)) :
      Derives rules (.capture inner) input (.fault cause)
  | action {inner act input found tree} (inside : Derives rules inner input (.done (some found)))
      (acts : act found.tree = .ok tree) :
      Derives rules (.action inner act) input (.done (some { found with tree }))
  | actionFaults {inner act input found cause}
      (inside : Derives rules inner input (.done (some found)))
      (breaks : act found.tree = .error cause) :
      Derives rules (.action inner act) input (.fault cause)
  | actionFails {inner act input} (inside : Derives rules inner input (.done none)) :
      Derives rules (.action inner act) input (.done none)
  | actionInnerFaults {inner act input cause} (inside : Derives rules inner input (.fault cause)) :
      Derives rules (.action inner act) input (.fault cause)
  | optional {inner input found} (inside : Derives rules inner input (.done (some found))) :
      Derives rules (.optional inner) input (.done (some found))
  | optionalNone {inner input} (inside : Derives rules inner input (.done none)) :
      Derives rules (.optional inner) input (.done (some (.empty input)))
  | optionalFaults {inner input cause} (inside : Derives rules inner input (.fault cause)) :
      Derives rules (.optional inner) input (.fault cause)
  | label {name inner input outcome} (inside : Derives rules inner input outcome) :
      Derives rules (.label name inner) input outcome
  | wrapped {shown inner input outcome} (inside : Derives rules inner input outcome) :
      Derives rules (.wrapped shown inner) input outcome
  | rule {name g input outcome} (known : rules.lookup name = some g)
      (body : Derives rules g input outcome) :
      Derives rules (.rule name) input outcome
  | unknownRule {name input} (unknown : rules.lookup name = none) :
      Derives rules (.rule name) input (.done none)

inductive DerivesRow (rules : Rules) : List Grammar → Text → Outcome (Option (List Match)) → Prop
  | nil (input) : DerivesRow rules [] input (.done (some []))
  | headFails {g gs input} (head : Derives rules g input (.done none)) :
      DerivesRow rules (g :: gs) input (.done none)
  | headFaults {g gs input cause} (head : Derives rules g input (.fault cause)) :
      DerivesRow rules (g :: gs) input (.fault cause)
  | cons {g gs input found row} (head : Derives rules g input (.done (some found)))
      (tail : DerivesRow rules gs found.rest (.done (some row))) :
      DerivesRow rules (g :: gs) input (.done (some (found :: row)))
  | tailFails {g gs input found} (head : Derives rules g input (.done (some found)))
      (tail : DerivesRow rules gs found.rest (.done none)) :
      DerivesRow rules (g :: gs) input (.done none)
  | tailFaults {g gs input found cause} (head : Derives rules g input (.done (some found)))
      (tail : DerivesRow rules gs found.rest (.fault cause)) :
      DerivesRow rules (g :: gs) input (.fault cause)

inductive DerivesChoice (rules : Rules) : List Grammar → Text → Outcome (Option Match) → Prop
  | nil (input) : DerivesChoice rules [] input (.done none)
  | here {g gs input found} (head : Derives rules g input (.done (some found))) :
      DerivesChoice rules (g :: gs) input (.done (some found))
  | hereFaults {g gs input cause} (head : Derives rules g input (.fault cause)) :
      DerivesChoice rules (g :: gs) input (.fault cause)
  | later {g gs input outcome} (head : Derives rules g input (.done none))
      (tail : DerivesChoice rules gs input outcome) :
      DerivesChoice rules (g :: gs) input outcome

/-- One non-empty match after another, until there is none or an empty one. -/
inductive DerivesRepetition (rules : Rules) : Grammar → Text → Outcome (List Match) → Prop
  | fails {g input} (stop : Derives rules g input (.done none)) :
      DerivesRepetition rules g input (.done [])
  | empty {g input found} (stop : Derives rules g input (.done (some found)))
      (empty : found.parsed = []) :
      DerivesRepetition rules g input (.done [])
  | faults {g input cause} (stop : Derives rules g input (.fault cause)) :
      DerivesRepetition rules g input (.fault cause)
  | more {g input found row} (head : Derives rules g input (.done (some found)))
      (nonempty : found.parsed ≠ [])
      (tail : DerivesRepetition rules g found.rest (.done row)) :
      DerivesRepetition rules g input (.done (found :: row))
  | moreFaults {g input found cause} (head : Derives rules g input (.done (some found)))
      (nonempty : found.parsed ≠ [])
      (tail : DerivesRepetition rules g found.rest (.fault cause)) :
      DerivesRepetition rules g input (.fault cause)

inductive DerivesPairs (rules : Rules) : Grammar → Grammar → Text → Outcome (List Match) → Prop
  | separatorFails {value separator input} (gap : Derives rules separator input (.done none)) :
      DerivesPairs rules value separator input (.done [])
  | separatorFaults {value separator input cause}
      (gap : Derives rules separator input (.fault cause)) :
      DerivesPairs rules value separator input (.fault cause)
  | valueFails {value separator input before}
      (gap : Derives rules separator input (.done (some before)))
      (item : Derives rules value before.rest (.done none)) :
      DerivesPairs rules value separator input (.done [])
  | valueFaults {value separator input before cause}
      (gap : Derives rules separator input (.done (some before)))
      (item : Derives rules value before.rest (.fault cause)) :
      DerivesPairs rules value separator input (.fault cause)
  | bothEmpty {value separator input before found}
      (gap : Derives rules separator input (.done (some before)))
      (item : Derives rules value before.rest (.done (some found)))
      (empty : before.parsed = [] ∧ found.parsed = []) :
      DerivesPairs rules value separator input (.done [])
  | more {value separator input before found row}
      (gap : Derives rules separator input (.done (some before)))
      (item : Derives rules value before.rest (.done (some found)))
      (nonempty : ¬ (before.parsed = [] ∧ found.parsed = []))
      (tail : DerivesPairs rules value separator found.rest (.done row)) :
      DerivesPairs rules value separator input (.done (before :: found :: row))
  | moreFaults {value separator input before found cause}
      (gap : Derives rules separator input (.done (some before)))
      (item : Derives rules value before.rest (.done (some found)))
      (nonempty : ¬ (before.parsed = [] ∧ found.parsed = []))
      (tail : DerivesPairs rules value separator found.rest (.fault cause)) :
      DerivesPairs rules value separator input (.fault cause)

end

end Peg
