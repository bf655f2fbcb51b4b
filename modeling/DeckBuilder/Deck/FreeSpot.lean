import DeckBuilder.Deck.Basic

/-! # The free-spot grid

New cards are placed on the first spot of a grid, row by row, where nothing lies. Each placement
takes at most one spot, so among one spot more than there are placements one is free.
-/

namespace DeckBuilder

/-- The spots in a row of the grid. -/
def spotsPerRow : Nat := 6

/-- The distance of two spots in a row. -/
def spotWidth : Nat := 100

/-- The distance of two rows. -/
def spotHeight : Nat := 50

variable {α : Type} [Coordinate α]

/-- The spots of the grid in row-major order. -/
def gridSpot (n : Nat) : Point α :=
  ⟨(n % spotsPerRow * spotWidth : Nat), (n / spotsPerRow * spotHeight : Nat)⟩

/-- Whether a card or one of its phantoms lies on a spot. -/
def isTaken (cards : List (DeckCard α)) (spot : Point α) : Bool :=
  cards.any fun card => card.placements.any fun position => position.point.sameSpot spot

/-- The number of placements of cards. -/
def placementCount (cards : List (DeckCard α)) : Nat :=
  (cards.flatMap (·.placements)).length

/-- The number of the first free spot. -/
def freeIndex (cards : List (DeckCard α)) : Nat :=
  ((List.range (placementCount cards + 1)).find? fun n => !isTaken cards (gridSpot n)).getD
    (placementCount cards)

/-- The placement on the first free spot. -/
def freePosition (cards : List (DeckCard α)) : Position α :=
  .free (gridSpot (freeIndex cards))

end DeckBuilder
