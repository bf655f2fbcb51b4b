import DeckBuilder.Catalogue.Basic
import DeckBuilder.Deck.Edit
import DeckBuilder.Decklist.CopyLimit

/-! # Warnings about a deck

What the rules for decks with a commander object to, card by card. Phantoms count as copies here,
since each stands for a card on the board.
-/

namespace DeckBuilder

/-- What is wrong with a card. -/
inductive WarningKind where
  | tooManyCopies (copies allowed : UInt32)
  | outsideColorIdentity
deriving DecidableEq, Repr

/-- An objection to a card of a deck. -/
structure DeckWarning where
  cardId : String
  kind : WarningKind
  message : String
deriving DecidableEq, Repr

namespace DeckWarning

/-- The objection to more copies than are allowed. -/
def copies (card : Card) (copies allowed : UInt32) : DeckWarning :=
  ⟨card.id, .tooManyCopies copies allowed,
    card.name ++ ": " ++ decimal copies.toNat ++ " copies found, commander formats allow " ++
      decimal allowed.toNat⟩

/-- The objection to a card outside the color identity of the commander. -/
def identity (card commander : Card) : DeckWarning :=
  ⟨card.id, .outsideColorIdentity,
    card.name ++ " is outside " ++ commander.name ++ "'s color identity"⟩

/-- The objections to copies of a card. -/
def ofCopies (card : Card) (copies : UInt32) : List DeckWarning :=
  match card.allowedCopies with
  | .limited allowed => if allowed < copies then [.copies card copies allowed] else []
  | .unlimited => []

/-- The objections to the color identity of a card. -/
def ofIdentity (card commander : Card) : List DeckWarning :=
  if card.fitsIdentityOf commander then [] else [identity card commander]

end DeckWarning

namespace Deck

variable {α : Type}

/-- The copies of a card on the board. -/
def copiesOf (card : DeckCard α) : UInt32 :=
  addCounts card.count (UInt32.ofNat card.phantoms.length)

/-- The objections to the normal cards of the main deck; none for a deck without a commander. -/
def warnings (deck : Deck α) (catalogue : Catalogue) : List DeckWarning :=
  match deck.commander?.bind fun card => catalogue.get? card.cardId with
  | none => []
  | some commander =>
    (deck.cards.filter (·.isMainNormal)).flatMap fun deckCard =>
      match catalogue.get? deckCard.cardId with
      | some card =>
        DeckWarning.ofCopies card (copiesOf deckCard) ++ DeckWarning.ofIdentity card commander
      | none => []

end Deck

end DeckBuilder
