import DeckBuilder.Deck.Basic
import DeckBuilder.Text.Decimal

/-! # Board nodes

What a board shows: a node for every card slot, one for every phantom, and one for every group.
-/

namespace DeckBuilder

/-- What a node stands for. -/
inductive NodeData (α : Type) where
  | card (cardId : String) (part : DeckPart) (role : CardRole) (version : Option String)
  /-- An extra placement of the card with the given node, with its place among the extra ones. -/
  | phantom (cardNode : String) (index : Nat)
  | group (label : String) (width height : α)
deriving DecidableEq, Repr

/-- A node. Its position is relative to the parent group when it has one. -/
structure Node (α : Type) where
  id : String
  position : Point α
  parent : Option String
  data : NodeData α
deriving DecidableEq, Repr

def cardWidth : Nat := 100

def cardHeight : Nat := 140

namespace Node

variable {α : Type}

def isGroup (node : Node α) : Bool :=
  match node.data with
  | .group .. => true
  | _ => false

def isCard (node : Node α) : Bool :=
  match node.data with
  | .card .. => true
  | _ => false

def isPhantom (node : Node α) : Bool :=
  match node.data with
  | .phantom .. => true
  | _ => false

theorem isGroup_eq_false_of_isCard {node : Node α} (isCard : node.isCard) :
    node.isGroup = false := by
  cases data : node.data with
  | group => simp [Node.isCard, data] at isCard
  | _ => rw [isGroup, data]

def width [Coordinate α] (node : Node α) : α :=
  match node.data with
  | .group _ width _ => width
  | _ => cardWidth

def height [Coordinate α] (node : Node α) : α :=
  match node.data with
  | .group _ _ height => height
  | _ => cardHeight

theorem size_eq_of_data_eq [Coordinate α] {first second : Node α}
    (same : first.data = second.data) :
    first.width = second.width ∧ first.height = second.height := by
  rw [width, width, height, height, same]
  exact ⟨rfl, rfl⟩

/-- Cards and phantoms are of one size. -/
theorem size_of_single [Coordinate α] {node : Node α} (single : node.isGroup = false) :
    node.width = (cardWidth : α) ∧ node.height = (cardHeight : α) := by
  cases data : node.data with
  | group => simp [isGroup, data] at single
  | _ => simp only [width, height, data, and_self]

end Node

/-- The node ID of a slot: the card ID, marked for the sideboard. -/
def Slot.nodeId (slot : Slot) : String :=
  match slot.part with
  | .main => slot.cardId
  | .sideboard => slot.cardId ++ "_side"

/-- The node ID of a phantom of the card with the given node. -/
def phantomNodeId (cardNode : String) (index : Nat) : String :=
  cardNode ++ "_phantom_" ++ decimal index

end DeckBuilder
