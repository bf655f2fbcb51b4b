import DeckBuilder.Board.Basic
import DeckBuilder.DistinctBy
import DeckBuilder.OrderCode

/-! # Repairing a board

A board is built from any list of nodes by dropping and detaching as little as possible: repeated
IDs keep their first node, parents are groups of the board, no chain of parents closes on itself,
and phantoms have a card. Nodes are shown parents first: free nodes, then nested ones, groups before
other nodes in both, and shallow nodes before deep ones.
-/

namespace DeckBuilder

namespace Node

variable {α : Type}

/-- Keeps the first node of each ID. -/
def distinct (nodes : List (Node α)) : List (Node α) :=
  distinctBy (·.id) nodes

/-- Whether an ID is that of a group. -/
def namesGroup (nodes : List (Node α)) (id : String) : Bool :=
  nodes.any fun node => node.isGroup && node.id == id

/-- Whether an ID is that of a card. -/
def namesCard (nodes : List (Node α)) (id : String) : Bool :=
  nodes.any fun node => node.isCard && node.id == id

/-- Detaches a node from its parent. -/
def detach (node : Node α) : Node α :=
  { node with parent := none }

/-- Detaches the nodes whose parent is themselves or no group. -/
def detachLoose (nodes : List (Node α)) : List (Node α) :=
  nodes.map fun node =>
    if node.parent.all fun parent => parent != node.id && namesGroup nodes parent then node
    else node.detach

/-- Whether a node is anything but a phantom without a card. -/
def hasCard (nodes : List (Node α)) (node : Node α) : Bool :=
  match node.data with
  | .phantom cardNode _ => namesCard nodes cardNode
  | _ => true

/-- Drops the phantoms without a card. -/
def dropOrphans (nodes : List (Node α)) : List (Node α) :=
  nodes.filter (hasCard nodes)

end Node

namespace Board

variable {α : Type}

/-- Detaches a node that sits above itself. -/
def cutAt (board : Board α) (id : String) : Board α :=
  if board.isDescendant id id then board.changeNode id Node.detach else board

/-- Detaches, in board order, every node that still sits above itself. -/
def breakCycles (board : Board α) : Board α :=
  (board.nodes.map (·.id)).foldl cutAt board

/-- The board of a list of nodes, repaired. -/
def ofNodes (nodes : List (Node α)) : Board α :=
  let board := (indexed (Node.detachLoose (Node.distinct nodes))).breakCycles
  indexed (Node.dropOrphans board.nodes)

/-! ## Nesting order -/

/-- The order code of a node. -/
def nestingCode (board : Board α) (node : Node α) : List Nat :=
  [node.parent.isSome.toNat, (!node.isGroup).toNat, board.depth node.id]

/-- Puts every parent before its children, otherwise keeping the order. -/
def sortByNesting (board : Board α) : Board α :=
  indexed <| board.nodes.mergeSort fun first second =>
    OrderCode.compare (board.nestingCode first) (board.nestingCode second) != .gt

end Board

end DeckBuilder
