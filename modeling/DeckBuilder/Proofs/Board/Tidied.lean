import DeckBuilder.Proofs.Board.Tidying

/-! # Tidy boards

Tidying leaves a board as it is when every group has the room that its members need and every node
that it would place is in its place. Places are read off IDs, names, labels and parents, all of
which tidying keeps, and off the sizes of groups, which stay what they are once the groups have
grown. So a board that was tidied is tidy.
-/

namespace DeckBuilder

variable {α : Type}

namespace Node

/-- The card that a card node shows. -/
def cardId? (node : Node α) : Option String :=
  match node.data with
  | .card cardId .. => some cardId
  | _ => none

variable {first second : Node α} (same : first.identity = second.identity)

include same

theorem isPhantom_eq_of_identity_eq : first.isPhantom = second.isPhantom := by
  have data := congrArg Prod.snd same
  unfold isPhantom
  cases left : first.data <;> cases right : second.data <;>
    simp_all [identity, NodeData.unsized]

theorem cardId?_eq_of_identity_eq : first.cardId? = second.cardId? := by
  have data := congrArg Prod.snd same
  unfold cardId?
  cases left : first.data <;> cases right : second.data <;>
    simp_all [identity, NodeData.unsized]

end Node

namespace Board

/-! ## What moving and growing nodes keeps -/

section

variable {board : Board α} {catalogue : Catalogue} {change : Node α → Node α}

theorem map_eq_self (same : ∀ node ∈ board.nodes, change node = node) :
    { board with nodes := board.nodes.map change } = board :=
  congrArg (Board.mk · board.index) ((List.map_congr_left same).trans (List.map_id _))

theorem shownCardId?_eq (board : Board α) (node : Node α) :
    board.shownCardId? node =
      match node.data with
      | .phantom cardNode _ => (board.get? cardNode).bind (·.cardId?)
      | _ => node.cardId? :=
  rfl

variable (identity : ∀ node, (change node).identity = node.identity)

include identity

theorem shownCardId?_map (node : Node α) :
    shownCardId? { board with nodes := board.nodes.map change } (change node) =
      board.shownCardId? node := by
  have cards (node : Node α) : (change node).cardId? = node.cardId? :=
    Node.cardId?_eq_of_identity_eq (identity node)
  rw [shownCardId?_eq, shownCardId?_eq]
  cases data : node.data with
  | phantom cardNode index =>
    have same := Node.data_eq_phantom_of_identity_eq (identity node).symm data
    simp only [same, get?_map, Option.bind_map, Function.comp_def, cards]
  | _ =>
    cases same : (change node).data with
    | phantom cardNode index =>
      rw [Node.data_eq_phantom_of_identity_eq (identity node) same] at data
      cases data
    | _ => exact cards node

theorem displayName_map (node : Node α) :
    displayName { board with nodes := board.nodes.map change } catalogue (change node) =
      board.displayName catalogue node := by
  rw [displayName, displayName, shownCardId?_map identity,
    Node.id_eq_of_identity_eq (identity node)]

theorem byName_map (nodes : List (Node α)) :
    byName { board with nodes := board.nodes.map change } catalogue (nodes.map change) =
      board.byName catalogue nodes := by
  simp only [byName, List.map_map, Function.comp_def, displayName_map identity,
    Node.id_eq_of_identity_eq (identity _)]

variable (parent : ∀ node, (change node).parent = node.parent)

include parent

theorem members_map (group : String) :
    members { board with nodes := board.nodes.map change } catalogue group =
      board.members catalogue group := by
  have children : Board.children { board with nodes := board.nodes.map change } group =
      (board.children group).map change := by
    simp only [Board.children, List.filter_map, Function.comp_def, parent]
  have cards (node : Node α) := Node.isCard_eq_of_identity_eq (identity node)
  have phantoms (node : Node α) := Node.isPhantom_eq_of_identity_eq (identity node)
  simp only [members, children, List.filter_map, Function.comp_def, cards, phantoms,
    byName_map identity]

theorem freeOrder_map :
    freeOrder { board with nodes := board.nodes.map change } catalogue =
      board.freeOrder catalogue := by
  have cards (node : Node α) := Node.isCard_eq_of_identity_eq (identity node)
  simp only [freeOrder, List.filter_map, Function.comp_def, cards, parent, byName_map identity]

end

section

variable [Coordinate α] {board : Board α} {catalogue : Catalogue}

theorem members_autosort (group : String) :
    (board.autosort catalogue).members catalogue group = board.members catalogue group :=
  (members_map (identity_placeFree _ _) (parent_placeFree _ _) group).trans <|
    (members_map (identity_placeTile _ _) (parent_placeTile _ _) group).trans <|
      members_map (identity_placeMember board catalogue) (parent_placeMember board catalogue) group

theorem freeOrder_arrangeFree :
    (board.arrangeFree catalogue).freeOrder catalogue = board.freeOrder catalogue :=
  freeOrder_map (identity_placeFree _ _) (parent_placeFree _ _)

/-- Laying out the free cards leaves the groups as they are. -/
theorem topGroups_arrangeFree : (board.arrangeFree catalogue).topGroups = board.topGroups := by
  have groups : ((board.arrangeFree catalogue).nodes.filter fun node =>
      node.isGroup && node.parent.isNone) =
        board.nodes.filter fun node => node.isGroup && node.parent.isNone := by
    rw [arrangeFree, List.filter_map]
    simp only [Function.comp_def, parent_placeFree,
      Node.isGroup_eq_of_identity_eq (identity_placeFree ..)]
    refine (List.map_congr_left fun node listed => ?_).trans (List.map_id _)
    exact placeFree_of_isGroup (Bool.and_eq_true_iff.mp (List.mem_filter.mp listed).2).1
  rw [topGroups, groups, ← topGroups]

theorem map_id_topGroups_tileGroups :
    board.tileGroups.topGroups.map (·.id) = board.topGroups.map (·.id) := by
  rw [topGroups_tileGroups, List.map_map]
  exact List.map_congr_left fun group _ => Node.id_eq_of_identity_eq (identity_placeTile ..)

end

/-! ## Tidy boards -/

open scoped ExactCoordinates

variable [Ring α] [LinearOrder α] {board : Board α} {catalogue : Catalogue}

/-- Every group has its room, and whatever tidying places is in its place. -/
structure Tidy (board : Board α) (catalogue : Catalogue) : Prop where
  rooms : ∀ group ∈ board.nodes, group.isGroup →
    HasRoom group (board.members catalogue group.id).length
  members : ∀ node ∈ board.nodes, node.isGroup = false → ∀ group, node.parent = some group →
    node.position = memberPoint ((board.members catalogue group).idxOf node.id)
  /-- The groups that are in no group are in the cells of their places by label. -/
  tiles : ∀ group ∈ board.nodes, group.isGroup → group.parent = none →
    group.position =
      tilePoint (tileSize board.topGroups) ((board.topGroups.map (·.id)).idxOf group.id)
  free : ∀ card ∈ board.nodes, card.isCard → card.parent = none →
    card.position = freePoint board.freeTop ((board.freeOrder catalogue).idxOf card.id)

/-- A group that has room does not grow. -/
theorem growGroup_eq_self {group : Node α} {members : Nat} (room : HasRoom group members) :
    growGroup group members = group := by
  cases data : group.data with
  | group label width height =>
    obtain ⟨leastWidth, leastHeight, wide, high⟩ := room
    simp only [Node.width, Node.height, data] at leastWidth leastHeight wide high
    simp only [growGroup, data, larger_eq_max, max_eq_left leastWidth, max_eq_left leastHeight,
      max_eq_left wide, max_eq_left high]
    rw [← data]
  | _ => simp only [growGroup, data]

namespace Tidy

variable (tidy : board.Tidy catalogue)

include tidy

theorem arrangeGroups_eq_self : board.arrangeGroups catalogue = board := by
  refine map_eq_self fun node member => ?_
  cases isGroup : node.isGroup with
  | true =>
    rw [placeMember_of_isGroup isGroup]
    exact growGroup_eq_self (tidy.rooms node member isGroup)
  | false =>
    simp only [placeMember, isGroup, Bool.false_eq_true, ↓reduceIte]
    cases above : node.parent with
    | none => rfl
    | some group => simp only [← tidy.members node member isGroup group above, ← above]

theorem tileGroups_eq_self : board.tileGroups = board := by
  refine map_eq_self fun node member => ?_
  unfold placeTile
  split
  · rename_i isTop
    obtain ⟨isGroup, outside⟩ := Bool.and_eq_true_iff.mp isTop
    rw [← tidy.tiles node member isGroup (Option.isNone_iff_eq_none.mp outside)]
  · rfl

theorem arrangeFree_eq_self : board.arrangeFree catalogue = board := by
  refine map_eq_self fun node member => ?_
  unfold placeFree
  split
  · rename_i isFree
    obtain ⟨isCard, outside⟩ := Bool.and_eq_true_iff.mp isFree
    have place := tidy.free node member isCard (Option.isNone_iff_eq_none.mp outside)
    rw [freeOrder] at place
    rw [← place]
  · rfl

theorem autosort_eq_self : board.autosort catalogue = board := by
  rw [autosort, tidy.arrangeGroups_eq_self, tidy.tileGroups_eq_self, tidy.arrangeFree_eq_self]

end Tidy

/-- A board that was tidied is tidy. -/
theorem tidy_autosort (board : Board α) (catalogue : Catalogue) :
    (board.autosort catalogue).Tidy catalogue where
  rooms group member isGroup := by
    rw [members_autosort]
    exact hasRoom_of_mem_autosort member isGroup
  members node member single group below := by
    rw [members_autosort]
    exact (cell_of_mem_autosort member single below).2
  tiles group member isGroup outside := by
    obtain ⟨grown, -, rfl⟩ := List.mem_map.mp (mem_of_mem_arrangeFree member (.inl isGroup))
    rw [isGroup_placeTile] at isGroup
    rw [parent_placeTile] at outside
    rw [autosort, topGroups_arrangeFree, tileSize_tileGroups, map_id_topGroups_tileGroups,
      Node.id_eq_of_identity_eq (identity_placeTile ..)]
    simp only [placeTile, isGroup, outside, Option.isNone_none, Bool.and_self, ↓reduceIte]
  free card member isCard outside := by
    have groups : (board.autosort catalogue).topGroups =
        (board.arrangeGroups catalogue).tileGroups.topGroups := topGroups_arrangeFree
    rw [freeTop, groups, ← freeTop, autosort, freeOrder_arrangeFree]
    exact (cell_of_mem_arrangeFree member isCard outside).2

/-- Tidying leaves a board as it is exactly when it is tidy. -/
theorem autosort_eq_self_iff : board.autosort catalogue = board ↔ board.Tidy catalogue :=
  ⟨fun same => same ▸ tidy_autosort board catalogue, Tidy.autosort_eq_self⟩

/-- **Tidying again changes nothing**: no position, no size, no parent and not the order of the
nodes, whatever the board. -/
theorem autosort_autosort (board : Board α) (catalogue : Catalogue) :
    (board.autosort catalogue).autosort catalogue = board.autosort catalogue :=
  (tidy_autosort board catalogue).autosort_eq_self

end Board

end DeckBuilder
