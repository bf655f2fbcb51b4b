import DeckBuilder.Board.Node

/-! # Boards

An arena of nodes with parent pointers between them, and what is read off by following the pointers.
Nodes are found through an index of their IDs, which goes stale when nodes move within the board
without a new index. On a repaired board no chain of parents is longer than the list of nodes, so
the walks upwards are bounded by its length.
-/

namespace DeckBuilder

/-- The nodes of a board in board order, and the place of each ID among them. -/
structure Board (α : Type) where
  nodes : List (Node α)
  index : List (String × Nat)
deriving DecidableEq, Repr

variable {α : Type}

/-- The IDs of nodes with their places, in order. -/
def Node.places (nodes : List (Node α)) : List (String × Nat) :=
  nodes.zipIdx.map fun entry => (entry.1.id, entry.2)

namespace Board

/-- The board of a list of nodes as it stands. -/
def indexed (nodes : List (Node α)) : Board α :=
  ⟨nodes, Node.places nodes⟩

/-- The node at the place that the index has for an ID. Of several places the last one counts. -/
def get? (board : Board α) (id : String) : Option (Node α) :=
  (board.index.reverse.lookup id).bind fun place => board.nodes[place]?

/-- The parent of the node with an ID. -/
def parent? (board : Board α) (id : String) : Option String :=
  (board.get? id).bind (·.parent)

/-- The parents that are met on the way up from a node, nearest first, up to a bound. -/
def climb (board : Board α) : Nat → String → List String
  | 0, _ => []
  | bound + 1, id =>
    match board.parent? id with
    | some parent => parent :: climb board bound parent
    | none => []

/-- The nodes above a node, nearest first. -/
def ancestors (board : Board α) (id : String) : List String :=
  board.climb board.nodes.length id

/-- The number of nodes above a node. -/
def depth (board : Board α) (id : String) : Nat :=
  (board.ancestors id).length

/-- Whether one node sits somewhere above another. -/
def isDescendant (board : Board α) (id ancestor : String) : Bool :=
  (board.ancestors id).contains ancestor

/-- The direct children of a node, in board order. -/
def children (board : Board α) (parent : String) : List (Node α) :=
  board.nodes.filter fun node => node.parent == some parent

/-- Changes the nodes with an ID where they are. -/
def changeNode (board : Board α) (id : String) (change : Node α → Node α) : Board α :=
  { board with nodes := board.nodes.map fun node => if node.id = id then change node else node }

variable [Coordinate α]

/-- The position of a node on the board: its own plus those of all nodes above it. -/
def absolutePosition? (board : Board α) (id : String) : Option (Point α) :=
  (board.get? id).map fun node =>
    ((board.ancestors id).filterMap board.get?).foldl
      (fun point above => point.offset above.position) node.position

/-- The rectangle that a node covers on the board. -/
def absoluteRect? (board : Board α) (id : String) : Option (Rect α) := do
  let node ← board.get? id
  let origin ← board.absolutePosition? id
  return ⟨origin, node.width, node.height⟩

end Board

end DeckBuilder
