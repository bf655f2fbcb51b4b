import DeckBuilder.Board.Repair
import DeckBuilder.Catalogue.Basic

/-! # Tidying a board

Inside each group, cards and then phantoms are laid out by name in a grid, and the group grows to
fit them. The top-level groups are tiled by label in cells of one size, and the free cards are laid
out in a grid below the lowest of them.
-/

namespace DeckBuilder

/-- The gap around a card in a grid. -/
def cardMargin : Nat := 12

/-- The cards in a row of a group. -/
def groupColumns : Nat := 5

/-- The cards in a row of the free cards. -/
def freeColumns : Nat := 6

/-- The groups in a row. -/
def tileColumns : Nat := 3

def tileGap : Nat := 40

def headerHeight : Nat := 60

/-- The gap between the groups and the free cards. -/
def freeGap : Nat := 80

/-- The least width and height of a group. -/
def leastGroupSize : Nat := 180

def cellWidth : Nat := cardWidth + cardMargin

def cellHeight : Nat := cardHeight + cardMargin

/-- The width that a group needs for a number of members. -/
def neededWidth (members : Nat) : Nat :=
  max 1 (min members groupColumns) * cellWidth + 2 * cardMargin

/-- The height that a group needs for a number of members. -/
def neededHeight (members : Nat) : Nat :=
  max 1 ((members + groupColumns - 1) / groupColumns) * cellHeight + 2 * cardMargin + headerHeight

namespace Board

variable {α : Type} [Coordinate α]

omit [Coordinate α] in
/-- The card that a node shows. -/
def shownCardId? (board : Board α) (node : Node α) : Option String :=
  let cardId? (node : Node α) : Option String :=
    match node.data with
    | .card cardId .. => some cardId
    | _ => none
  match node.data with
  | .phantom cardNode _ => (board.get? cardNode).bind cardId?
  | _ => cardId? node

omit [Coordinate α] in
/-- The name under which a node is laid out: that of its card, or its own ID. -/
def displayName (board : Board α) (catalogue : Catalogue) (node : Node α) : String :=
  (((board.shownCardId? node).bind catalogue.get?).map (·.name)).getD node.id

omit [Coordinate α] in
/-- The IDs of nodes in the order of their names, and of their IDs among equal names. -/
def byName (board : Board α) (catalogue : Catalogue) (nodes : List (Node α)) : List String :=
  let named := nodes.map fun node => (board.displayName catalogue node, node.id)
  (named.mergeSort fun first second =>
    ((OrderKey.compare first.1 second.1).then (OrderKey.compare first.2 second.2)) != .gt).map (·.2)

omit [Coordinate α] in
/-- The members of a group in the order in which they are laid out. -/
def members (board : Board α) (catalogue : Catalogue) (group : String) : List String :=
  let children := board.children group
  board.byName catalogue (children.filter (·.isCard)) ++
    board.byName catalogue (children.filter (·.isPhantom))

/-- The place of a member in its group. -/
def memberPoint (index : Nat) : Point α :=
  ⟨(index % groupColumns * cellWidth + cardMargin : Nat),
    (index / groupColumns * cellHeight + cardMargin : Nat)⟩

/-- A group grown to hold a number of members. -/
def growGroup (node : Node α) (members : Nat) : Node α :=
  match node.data with
  | .group label width height =>
    { node with
      data := .group label
        (larger (larger width leastGroupSize) (neededWidth members))
        (larger (larger height leastGroupSize) (neededHeight members)) }
  | _ => node

/-- A member in its place in its group, or a group grown to hold its members. -/
def placeMember (board : Board α) (catalogue : Catalogue) (node : Node α) : Node α :=
  if node.isGroup then growGroup node (board.members catalogue node.id).length
  else
    match node.parent with
    | some group =>
      { node with position := memberPoint ((board.members catalogue group).idxOf node.id) }
    | none => node

/-- Lays out the members of every group and lets the groups grow. -/
def arrangeGroups (board : Board α) (catalogue : Catalogue) : Board α :=
  { board with nodes := board.nodes.map (board.placeMember catalogue) }

omit [Coordinate α] in
/-- The groups outside all groups, by label. -/
def topGroups (board : Board α) : List (Node α) :=
  let label (node : Node α) : String :=
    match node.data with
    | .group label .. => label
    | _ => ""
  (board.nodes.filter fun node => node.isGroup && node.parent.isNone).mergeSort
    fun first second => OrderKey.compare (label first) (label second) != .gt

/-- The size of the cells in which the given groups are tiled. -/
def tileSize (groups : List (Node α)) : α × α :=
  ((groups.map (·.width)).foldl larger ((0 : Nat) : α),
    (groups.map (·.height)).foldl larger ((0 : Nat) : α))

/-- The place of a group among cells of a size. -/
def tilePoint (size : α × α) (index : Nat) : Point α :=
  ⟨((index % tileColumns : Nat) : α) * (size.1 + (tileGap : α)),
    ((index / tileColumns : Nat) : α) * (size.2 + (tileGap : α))⟩

/-- The lowest edge of tiled groups. -/
def tileBottom (groups : List (Node α)) : α :=
  let size := tileSize groups
  groups.zipIdx.foldl
    (fun bottom entry => larger bottom ((tilePoint size entry.2).y + entry.1.height))
    ((0 : Nat) : α)

/-- A top-level group in its place among cells of a size. -/
def placeTile (size : α × α) (order : List String) (node : Node α) : Node α :=
  if node.isGroup && node.parent.isNone then
    { node with position := tilePoint size (order.idxOf node.id) }
  else node

/-- Tiles the top-level groups. -/
def tileGroups (board : Board α) : Board α :=
  let groups := board.topGroups
  let size := tileSize groups
  let order := groups.map (·.id)
  { board with nodes := board.nodes.map (placeTile size order) }

/-- Where the free cards start. -/
def freeTop (board : Board α) : α :=
  let groups := board.topGroups
  if groups.isEmpty then ((0 : Nat) : α) else tileBottom groups + (freeGap : α)

/-- The place of a free card below a line. -/
def freePoint (top : α) (index : Nat) : Point α :=
  ⟨(index % freeColumns * cellWidth + cardMargin : Nat),
    top + ((index / freeColumns * cellHeight : Nat) : α)⟩

/-- A free card in its place below a line. -/
def placeFree (top : α) (order : List String) (node : Node α) : Node α :=
  if node.isCard && node.parent.isNone then
    { node with position := freePoint top (order.idxOf node.id) }
  else node

/-- Lays out the free cards below the groups. -/
def arrangeFree (board : Board α) (catalogue : Catalogue) : Board α :=
  let order := board.byName catalogue
    (board.nodes.filter fun node => node.isCard && node.parent.isNone)
  let top := board.freeTop
  { board with nodes := board.nodes.map (placeFree top order) }

/-- Tidies a board. -/
def autosort (board : Board α) (catalogue : Catalogue) : Board α :=
  ((board.arrangeGroups catalogue).tileGroups).arrangeFree catalogue

end Board

end DeckBuilder
