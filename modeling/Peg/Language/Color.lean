import Peg.Grammar.Parse

/-!
Colours by name: an alternation of the keywords that the type lists, and the colour that it reads
the one in front as. The list and the reading come from elsewhere; a program runs on the instances
below, and what is told of the parser asks of them no more than what it names.
-/
namespace Peg.Language

/-- A type that lists the names of its variants. -/
class VariantNames (α : Type) where
  variants : List Text

/-- A type with a reading of texts as its values. -/
class FromText (α : Type) where
  fromText? : Text → Option α

inductive Color where
  | burgundy
  | azure
  | lime
  deriving DecidableEq

namespace Color

def name : Color → Text
  | burgundy => "Burgundy".toList
  | azure => "Azure".toList
  | lime => "Lime".toList

instance : VariantNames Color where
  variants := ["Burgundy".toList, "Azure".toList, "Lime".toList]

instance : FromText Color where
  fromText? word :=
    if word = "Burgundy".toList then some burgundy
    else if word = "Azure".toList then some azure
    else if word = "Lime".toList then some lime
    else none

def keyword [VariantNames Color] : Except Error Grammar :=
  Grammar.choice? ((VariantNames.variants Color).map .literal)

def parse [VariantNames Color] [FromText Color] (input : Text) : Option (Color × Text) :=
  match keyword with
  | .error _ => none
  | .ok g =>
    match g.parse [] input with
    | .done (some found) => do
      let word ← found.tree.bind Tree.text?
      let color ← FromText.fromText? word
      pure (color, found.rest)
    | _ => none

theorem mem_variants (word : Text) :
    word ∈ VariantNames.variants Color ↔ ∃ color : Color, color.name = word := by
  constructor
  · intro member
    simp only [VariantNames.variants, List.mem_cons, List.not_mem_nil, or_false] at member
    rcases member with rfl | rfl | rfl
    · exact ⟨burgundy, rfl⟩
    · exact ⟨azure, rfl⟩
    · exact ⟨lime, rfl⟩
  · rintro ⟨color, rfl⟩
    cases color <;> decide

theorem fromText?_name (color : Color) : FromText.fromText? color.name = some color := by
  cases color <;> decide

end Color
end Peg.Language
