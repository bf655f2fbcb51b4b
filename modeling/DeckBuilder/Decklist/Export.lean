import DeckBuilder.Catalogue.Basic
import DeckBuilder.Deck.Basic

/-! # Writing decklists

The commander and the main deck as decklist text. Cards that are not in the catalogue are left out.
-/

namespace DeckBuilder

/-- The name as written in a decklist: that of the front face. -/
def exportName (name : String) : String :=
  Card.frontSide name

namespace Deck

variable {α : Type}

/-- A line of a decklist. -/
def exportLine (count : Nat) (name : String) : String :=
  decimal count ++ " " ++ exportName name ++ "\n"

/-- The commander section. -/
def exportCommander (deck : Deck α) (catalogue : Catalogue) : String :=
  match deck.commander?.bind fun card => catalogue.get? card.cardId with
  | some card => "Commander\n" ++ exportLine 1 card.name ++ "\n"
  | none => ""

/-- The lines of the main deck. -/
def exportMain (deck : Deck α) (catalogue : Catalogue) : List String :=
  (deck.cards.filter (·.isMainNormal)).filterMap fun card =>
    (catalogue.get? card.cardId).map fun found => exportLine card.count.toNat found.name

/-- The decklist of a deck. -/
def decklist (deck : Deck α) (catalogue : Catalogue) : String :=
  deck.exportCommander catalogue ++ "Deck\n" ++ String.join (deck.exportMain catalogue)

end Deck

end DeckBuilder
