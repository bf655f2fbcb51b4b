import DeckBuilder.Board.Repair

/-! # The board of a deck

One group for every zone, one node for every slot and one for every phantom. Membership comes from
the child lists of the zones, where the first zone that lists a child has it; a slot that no zone
lists belongs to the zone its position names.
-/

namespace DeckBuilder

namespace Deck

variable {α : Type}

/-- Whether an ID is that of a zone. -/
def namesZone (deck : Deck α) (id : String) : Bool :=
  deck.zones.any (·.id == id)

/-- The zone that a zone is nested in: the first one, other than itself, that lists it. -/
def zoneParent? (deck : Deck α) (id : String) : Option String :=
  (deck.zones.find? fun zone => zone.id != id && zone.zoneChildren.contains id).map (·.id)

/-- The zone that lists a card node: the first one. -/
def cardParent? (deck : Deck α) (nodeId : String) : Option String :=
  (deck.zones.find? fun zone => zone.cardChildren.contains nodeId).map (·.id)

/-- The zone that a position names, if the deck has it. -/
def knownParent? (deck : Deck α) (position : Position α) : Option String :=
  position.parent.filter deck.namesZone

/-- The group of a zone. -/
def zoneNode (deck : Deck α) (zone : Zone α) : Node α :=
  ⟨zone.id, zone.position, deck.zoneParent? zone.id, .group zone.name zone.width zone.height⟩

/-- The node of a phantom. -/
def phantomNode (deck : Deck α) (cardNode : String) (phantom : Position α) (index : Nat) : Node α :=
  ⟨phantomNodeId cardNode index, phantom.point, deck.knownParent? phantom,
    .phantom cardNode index⟩

/-- The node of a slot. -/
def cardNode (deck : Deck α) (card : DeckCard α) : Node α :=
  ⟨card.slot.nodeId, card.position.point,
    (deck.cardParent? card.slot.nodeId).or (deck.knownParent? card.position),
    .card card.cardId card.part card.role card.version⟩

/-- The nodes of a deck card: its phantoms, then the card. -/
def nodesOfCard (deck : Deck α) (card : DeckCard α) : List (Node α) :=
  (card.phantoms.zipIdx.map fun entry => deck.phantomNode card.slot.nodeId entry.1 entry.2) ++
    [deck.cardNode card]

/-- The nodes of a deck as they are made, before repair. -/
def rawNodes (deck : Deck α) : List (Node α) :=
  deck.zones.map deck.zoneNode ++ deck.cards.flatMap deck.nodesOfCard

/-- The nodes of a deck, repaired and parents first. -/
def toNodes (deck : Deck α) : List (Node α) :=
  (Board.ofNodes deck.rawNodes).sortByNesting.nodes

end Deck

end DeckBuilder
