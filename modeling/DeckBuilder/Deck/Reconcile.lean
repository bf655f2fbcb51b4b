import DeckBuilder.Deck.Nodes

/-! # Reconciling a deck with its board

The board decides on positions, phantoms and zones, the deck on counts: a slot without a node keeps
its record, a new slot has one copy, and phantoms change no count.
-/

namespace DeckBuilder

variable {α : Type}

/-- The placement of a node. -/
def Node.placement (node : Node α) : Position α :=
  ⟨node.position.x, node.position.y, node.parent⟩

/-- The index of a phantom of a card node. -/
def Node.phantomIndex? (cardNode : String) (node : Node α) : Option Nat :=
  match node.data with
  | .phantom owner index => if owner = cardNode then some index else none
  | _ => none

namespace Board

/-- The placements of the phantoms of a card node, by index. -/
def phantomsOf (board : Board α) (cardNode : String) : List (Position α) :=
  let phantoms := board.nodes.filterMap fun node =>
    (node.phantomIndex? cardNode).map fun index => (index, node.placement)
  (phantoms.mergeSort fun first second => first.1 ≤ second.1).map (·.2)

/-- The deck card of a card node, which takes its count, and its version when the node has none,
from the last previous card in the same slot. -/
def deckCard? (board : Board α) (previous : List (DeckCard α)) (node : Node α) :
    Option (DeckCard α) :=
  match node.data with
  | .card cardId part role version =>
    let prior := previous.reverse.find? (·.slot == ⟨cardId, part⟩)
    some ⟨cardId, (prior.map (·.count)).getD 1, part, role,
      version.or (prior.bind (·.version)), node.placement, board.phantomsOf node.id⟩
  | _ => none

/-- The deck cards of the card nodes, in board order, one for each slot. -/
def placedCards (board : Board α) (previous : List (DeckCard α)) : List (DeckCard α) :=
  distinctBy (·.slot) (board.nodes.filterMap (board.deckCard? previous))

/-- Replaces previous cards by the placed cards of their slots, each of which is used once; what is
left over follows. -/
def mergeSlots : List (DeckCard α) → List (DeckCard α) → List (DeckCard α)
  | [], placed => placed
  | card :: previous, placed =>
    match placed.find? (·.slot == card.slot) with
    | some record => record :: mergeSlots previous (placed.eraseP (·.slot == card.slot))
    | none => card :: mergeSlots previous placed

/-- The deck cards of a board: the previous ones in their order, then the new ones. -/
def toDeckCards (board : Board α) (previous : List (DeckCard α)) : List (DeckCard α) :=
  mergeSlots previous (board.placedCards previous)

/-- The zone of a group, with its children in board order. -/
def zone? (board : Board α) (node : Node α) : Option (Zone α) :=
  match node.data with
  | .group label width height =>
    let children := board.children node.id
    some ⟨node.id, label, node.position, width, height,
      (children.filter (·.isCard)).map (·.id), (children.filter (·.isGroup)).map (·.id)⟩
  | _ => none

/-- The zones of a board. -/
def toZones (board : Board α) : List (Zone α) :=
  board.nodes.filterMap board.zone?

end Board

/-- A placement whose parent is forgotten unless it is one of the given zones. -/
def Position.within (position : Position α) (zones : List (Zone α)) : Position α :=
  { position with parent := position.parent.filter fun parent => zones.any (·.id == parent) }

/-- A deck card whose placements forget parents other than the given zones. -/
def DeckCard.within (card : DeckCard α) (zones : List (Zone α)) : DeckCard α :=
  { card with
    position := card.position.within zones
    phantoms := card.phantoms.map (·.within zones) }

/-- The deck with the cards and zones that a list of nodes shows. -/
def Deck.reconcile (deck : Deck α) (nodes : List (Node α)) : Deck α :=
  let board := Board.ofNodes nodes
  let zones := board.toZones
  { deck with
    cards := (board.toDeckCards deck.cards).map (·.within zones)
    zones }

end DeckBuilder
