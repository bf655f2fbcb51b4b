import DeckBuilder.Filter.Schema

/-! # Catalogues

The cards that a deck can be built from, in the order in which they were supplied.
-/

namespace DeckBuilder

/-- A list of cards to look cards up in. -/
structure Catalogue where
  cards : List Card
deriving DecidableEq

namespace Catalogue

/-- The card with an ID; of several the last one counts. -/
def get? (catalogue : Catalogue) (id : String) : Option Card :=
  catalogue.cards.reverse.find? (·.id == id)

def size (catalogue : Catalogue) : Nat :=
  catalogue.cards.length

/-- The filter that offers everything about the cards. -/
def filterSchema (catalogue : Catalogue) : FilterSpec :=
  .ofCards catalogue.cards

end Catalogue

end DeckBuilder
