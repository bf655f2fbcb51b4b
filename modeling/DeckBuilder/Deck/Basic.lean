import DeckBuilder.Geometry.Basic

/-! # Decks

A deck is a list of card slots, each with its placements on the board, and a list of zones that
group placements. A slot is known by its card and the part of the deck it belongs to.
-/

namespace DeckBuilder

/-- The part of a deck that a slot belongs to. -/
inductive DeckPart where
  | main
  | sideboard
deriving DecidableEq, Repr

/-- The role of a slot. -/
inductive CardRole where
  | normal
  | commander
  | companion
deriving DecidableEq, Repr

/-- A placement on the board. With a parent zone the coordinates are relative to it. -/
structure Position (α : Type) where
  x : α
  y : α
  parent : Option String
deriving DecidableEq, Repr

/-- The coordinates of a placement. -/
def Position.point {α : Type} (position : Position α) : Point α :=
  ⟨position.x, position.y⟩

/-- The placement at a point, outside all zones. -/
def Position.free {α : Type} (point : Point α) : Position α :=
  ⟨point.x, point.y, none⟩

/-- What tells the slots of a deck apart. -/
structure Slot where
  cardId : String
  part : DeckPart
deriving DecidableEq, Repr

/-- A card of a deck. Phantoms are extra placements that do not add to the count. -/
structure DeckCard (α : Type) where
  cardId : String
  count : UInt32
  part : DeckPart
  role : CardRole
  version : Option String
  position : Position α
  phantoms : List (Position α)
deriving DecidableEq

/-- A named rectangle on the board, with the IDs of the nodes and of the zones inside it. -/
structure Zone (α : Type) where
  id : String
  name : String
  position : Point α
  width : α
  height : α
  cardChildren : List String
  zoneChildren : List String
deriving DecidableEq, Repr

/-- A deck with its board. -/
structure Deck (α : Type) where
  id : String
  name : String
  cards : List (DeckCard α)
  zones : List (Zone α)
  ignored : List String
  cover : Option String
deriving DecidableEq

variable {α : Type}

namespace DeckCard

def slot (card : DeckCard α) : Slot :=
  ⟨card.cardId, card.part⟩

/-- One copy of a card in its first printing of choice, without phantoms. -/
def single (cardId : String) (part : DeckPart) (position : Position α) : DeckCard α :=
  ⟨cardId, 1, part, .normal, none, position, []⟩

/-- A card of the main deck without a special role. -/
def isMainNormal (card : DeckCard α) : Bool :=
  card.part == .main && card.role == .normal

def placements (card : DeckCard α) : List (Position α) :=
  card.position :: card.phantoms

end DeckCard

namespace Deck

/-- A deck without cards and zones. -/
def empty (id name : String) : Deck α :=
  ⟨id, name, [], [], [], none⟩

/-- The first card in the commander role. -/
def commander? (deck : Deck α) : Option (DeckCard α) :=
  deck.cards.find? (·.role == .commander)

/-- The first card in a slot. -/
def card? (deck : Deck α) (slot : Slot) : Option (DeckCard α) :=
  deck.cards.find? (·.slot == slot)

/-- Whether some slot holds a card. -/
def containsCard (deck : Deck α) (cardId : String) : Bool :=
  deck.cards.any (·.cardId == cardId)

/-- The first zone with an ID. -/
def zone? (deck : Deck α) (id : String) : Option (Zone α) :=
  deck.zones.find? (·.id == id)

end Deck

end DeckBuilder
