import DeckBuilder.Toggle

/-! # Choices

The keys of one dimension that carry a preference, split into the required and the excluded ones.
-/

namespace DeckBuilder

/-- The required and the excluded keys of one dimension, in key order. -/
structure Choices (κ : Type) where
  required : List κ
  excluded : List κ
deriving DecidableEq

namespace Choices

variable {κ : Type}

/-- The choices that toggles express. -/
def ofToggles (toggles : List (κ × Toggle)) : Choices κ where
  required := (toggles.filter fun entry => entry.2.isPositive).map (·.1)
  excluded := (toggles.filter fun entry => entry.2.isNegative).map (·.1)

/-- Some required key holds, if there is any, and no excluded one does. -/
def allowedBy (choices : Choices κ) (has : κ → Bool) : Bool :=
  (choices.required.isEmpty || choices.required.any has) && !choices.excluded.any has

/-- Every required key holds and no excluded one does. -/
def demandedOf (choices : Choices κ) (has : κ → Bool) : Bool :=
  choices.required.all has && !choices.excluded.any has

end Choices

end DeckBuilder
