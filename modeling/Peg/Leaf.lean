import Peg.Match

/-!
Parsers given by a function of the input. A leaf splits its input in two, and
says beforehand whether its match may be empty.
-/
namespace Peg

/-- A parser of its own making, together with its name in a printed grammar.
It consumes a front of the input and leaves the rest, and consumes at least one
character unless `mayBeEmpty` says otherwise. -/
structure Leaf where
  shown : Text
  mayBeEmpty : Bool
  run : Text → Option Match
  parsed_append_rest : ∀ {input found}, run input = some found → found.parsed ++ found.rest = input
  parsed_ne_nil : ∀ {input found}, mayBeEmpty = false → run input = some found → found.parsed ≠ []

namespace Leaf

def twoChars : Leaf where
  shown := "fn two_chars".toList
  mayBeEmpty := false
  run
    | a :: b :: rest => some ⟨[a, b], rest, some (.text [a, b])⟩
    | _ => none
  parsed_append_rest {input found} h := by
    split at h <;> simp_all only [Option.some.injEq, reduceCtorEq]
    subst h
    rfl
  parsed_ne_nil {input found} _ h := by
    split at h <;> simp_all only [Option.some.injEq, reduceCtorEq]
    subst h
    simp

/-- Two bytes of UTF-8: two characters of ascii, or one character of two bytes. -/
def twoBytes : Leaf where
  shown := "fn \x7b\x7bclosure\x7d\x7d".toList
  mayBeEmpty := false
  run
    | [] => none
    | a :: rest =>
      if a.utf8Size = 2 then some ⟨[a], rest, some (.text [a])⟩
      else match rest with
        | [] => none
        | b :: rest =>
          if a.utf8Size = 1 ∧ b.utf8Size = 1 then some ⟨[a, b], rest, some (.text [a, b])⟩
          else none
  parsed_append_rest {input found} h := by
    repeat' split at h
    all_goals simp_all only [Option.some.injEq, reduceCtorEq]
    all_goals subst h; rfl
  parsed_ne_nil {input found} _ h := by
    repeat' split at h
    all_goals simp_all only [Option.some.injEq, reduceCtorEq]
    all_goals subst h; simp

def never : Leaf where
  shown := "fn fail".toList
  mayBeEmpty := false
  run _ := none
  parsed_append_rest h := by simp at h
  parsed_ne_nil _ h := by simp at h

def nothing : Leaf where
  shown := "fn nothing".toList
  mayBeEmpty := true
  run input := some (.empty input)
  parsed_append_rest h := by simp only [Option.some.injEq] at h; subst h; rfl
  parsed_ne_nil h := by simp at h

def emptyText : Leaf where
  shown := "fn empty_text".toList
  mayBeEmpty := true
  run input := some ⟨[], input, some (.text [])⟩
  parsed_append_rest h := by simp only [Option.some.injEq] at h; subst h; rfl
  parsed_ne_nil h := by simp at h

def takeAll : Leaf where
  shown := "fn take_all".toList
  mayBeEmpty := true
  run input := some ⟨input, [], some (.text input)⟩
  parsed_append_rest h := by simp only [Option.some.injEq] at h; subst h; simp
  parsed_ne_nil h := by simp at h

end Leaf
end Peg
