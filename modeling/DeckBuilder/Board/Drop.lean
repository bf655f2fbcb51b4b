import DeckBuilder.Board.Repair

/-! # Dropping a dragged node

A card or phantom that is dropped belongs to the deepest group it overlaps, unless it still touches
the group it belongs to. It stays where it was dropped: only the group its coordinates are relative
to changes. Groups are never moved into other groups by dragging.
-/

namespace DeckBuilder

/-- What a drop did to the node. -/
inductive DropOutcome where
  | unchanged
  | attached (group : String)
  | detached (group : String)
  | moved (source target : String)
deriving DecidableEq, Repr

namespace DropOutcome

/-- The outcome of a change of parents. -/
def ofParents : Option String → Option String → DropOutcome
  | none, none => unchanged
  | none, some target => attached target
  | some source, none => detached source
  | some source, some target => if source = target then unchanged else moved source target

end DropOutcome

namespace Board

variable {α : Type} [Coordinate α]

/-- The groups that overlap a rectangle, in board order. -/
def groupsOver (board : Board α) (rect : Rect α) : List (Node α) :=
  board.nodes.filter fun node =>
    node.isGroup && (board.absoluteRect? node.id).any fun group => group.intersects rect

omit [Coordinate α] in
/-- The first of the deepest nodes of a list. -/
def deepest? (board : Board α) : List (Node α) → Option (Node α)
  | [] => none
  | node :: rest => some <| rest.foldl
      (fun best other => if board.depth best.id < board.depth other.id then other else best) node

/-- The group that a node belongs to after a drop over the given groups. -/
def dropTarget (board : Board α) (node : Node α) (touched : List (Node α)) : Option String :=
  if touched.any fun group => some group.id == node.parent then node.parent
  else (board.deepest? touched).map (·.id)

/-- Attaches a node to a parent so that it stays at an absolute position. -/
def reattach (board : Board α) (id : String) (absolute : Point α) (parent : Option String) :
    Board α :=
  let origin := (parent.bind board.absolutePosition?).getD .zero
  board.changeNode id fun node => { node with position := absolute.minus origin, parent }

/-- Drops the node with an ID where it is. -/
def drop (board : Board α) (id : String) : Board α × DropOutcome :=
  match board.get? id, board.absoluteRect? id with
  | some node, some rect =>
    if node.isGroup then (board, .unchanged)
    else
      let target := board.dropTarget node (board.groupsOver rect)
      match DropOutcome.ofParents node.parent target with
      | .unchanged => (board, .unchanged)
      | outcome => ((board.reattach id rect.origin target).sortByNesting, outcome)
  | _, _ => (board, .unchanged)

end Board

end DeckBuilder
