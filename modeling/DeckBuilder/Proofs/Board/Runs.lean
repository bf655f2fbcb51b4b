import DeckBuilder.Board.Autosort
import DeckBuilder.Proofs.Board.Dropping
import DeckBuilder.Proofs.Board.Nesting
import DeckBuilder.Proofs.Geometry.Exact
import Mathlib.Algebra.Order.Ring.Int

/-! # Boards in use

Whatever is done to a board that was built from nodes, it stays sound: nodes only change places,
sizes and parents, and the only new parent is a group that takes in a node which is none.
-/

namespace DeckBuilder

variable {α : Type}

/-- What a node stands for, whatever the size of a group. -/
def NodeData.unsized : NodeData α → NodeData Unit
  | .card cardId part role version => .card cardId part role version
  | .phantom cardNode index => .phantom cardNode index
  | .group label _ _ => .group label () ()

namespace Node

/-- What a node keeps wherever it is put: its ID and what it stands for. -/
def identity (node : Node α) : String × NodeData Unit :=
  (node.id, node.data.unsized)

section

variable {first second : Node α} (same : first.identity = second.identity)

include same

theorem id_eq_of_identity_eq : first.id = second.id :=
  congrArg Prod.fst same

theorem isGroup_eq_of_identity_eq : first.isGroup = second.isGroup := by
  have data := congrArg Prod.snd same
  unfold isGroup
  cases left : first.data <;> cases right : second.data <;>
    simp_all [identity, NodeData.unsized]

theorem isCard_eq_of_identity_eq : first.isCard = second.isCard := by
  have data := congrArg Prod.snd same
  unfold isCard
  cases left : first.data <;> cases right : second.data <;>
    simp_all [identity, NodeData.unsized]

theorem data_eq_phantom_of_identity_eq {owner : String} {index : Nat}
    (data : first.data = .phantom owner index) : second.data = .phantom owner index := by
  have same := congrArg Prod.snd same
  cases right : second.data <;> simp_all [identity, NodeData.unsized]

end

variable {nodes : List (Node α)} {change : Node α → Node α}

theorem ids_map (identity : ∀ node ∈ nodes, (change node).identity = node.identity) :
    (nodes.map change).map (·.id) = nodes.map (·.id) := by
  rw [List.map_map]
  exact List.map_congr_left fun node member => id_eq_of_identity_eq (identity node member)

/-- When groups keep their parents, a walk upwards from a group follows the pointers that there
were, and so it ends as it did. -/
theorem Repaired.acc_points_map (repaired : Repaired nodes)
    (identity : ∀ node ∈ nodes, (change node).identity = node.identity)
    (kept : ∀ group ∈ nodes, group.isGroup → (change group).parent = group.parent) {top : String}
    (isGroup : ∃ group ∈ nodes, group.isGroup ∧ group.id = top) :
    Acc (fun parent child => Points (nodes.map change) child parent) top := by
  induction top using repaired.ends.induction with
  | _ top ih =>
    obtain ⟨group, inside, groups, rfl⟩ := isGroup
    refine ⟨_, fun parent points => ?_⟩
    obtain ⟨_, member, named, above⟩ := points
    obtain ⟨node, present, rfl⟩ := List.mem_map.mp member
    rw [id_eq_of_identity_eq (identity node present)] at named
    have itself := eq_of_id_eq repaired.distinct present inside named
    subst itself
    rw [kept node present groups] at above
    exact ih parent ⟨node, present, rfl, above⟩ (repaired.parents node present parent above).2

/-- There is still nothing to repair when nodes keep what they stand for, and when those that get
new parents are no groups and get into groups. -/
theorem Repaired.map (repaired : Repaired nodes)
    (identity : ∀ node ∈ nodes, (change node).identity = node.identity)
    (parents : ∀ node ∈ nodes, (change node).parent = node.parent ∨
      node.isGroup = false ∧ ∀ parent, (change node).parent = some parent →
        ∃ group ∈ nodes, group.isGroup ∧ group.id = parent) :
    Repaired (nodes.map change) := by
  have id {node : Node α} (member : node ∈ nodes) : (change node).id = node.id :=
    id_eq_of_identity_eq (identity node member)
  -- Parents are groups, and no group has a new one.
  have isGroup {node : Node α} (member : node ∈ nodes) {parent : String}
      (above : (change node).parent = some parent) :
      ∃ group ∈ nodes, group.isGroup ∧ group.id = parent := by
    rcases parents node member with kept | ⟨-, grouped⟩
    · exact (repaired.parents node member parent (kept ▸ above)).2
    · exact grouped parent above
  have kept (group : Node α) (member : group ∈ nodes) (isGroup : group.isGroup) :
      (change group).parent = group.parent :=
    (parents group member).resolve_right fun moved => by simp [isGroup] at moved
  refine ⟨by rw [ids_map identity]; exact repaired.distinct, ?parents,
    ⟨fun child => ⟨child, ?ends⟩⟩, ?owners⟩
  case parents =>
    intro _ member parent above
    obtain ⟨node, present, rfl⟩ := List.mem_map.mp member
    obtain ⟨group, inside, groups, named⟩ := isGroup present above
    refine ⟨?_, change group, List.mem_map_of_mem inside, ?_, (id inside).trans named⟩
    · rw [id present, ← named]
      intro same
      have itself := eq_of_id_eq repaired.distinct inside present same
      subst itself
      exact (repaired.parents group inside parent (kept group inside groups ▸ above)).1 named.symm
    · rwa [isGroup_eq_of_identity_eq (identity group inside)]
  case ends =>
    intro parent points
    obtain ⟨_, member, -, above⟩ := points
    obtain ⟨node, present, rfl⟩ := List.mem_map.mp member
    exact repaired.acc_points_map identity kept (isGroup present above)
  case owners =>
    intro _ member owner index data
    obtain ⟨node, present, rfl⟩ := List.mem_map.mp member
    obtain ⟨card, inside, isCard, named⟩ := repaired.owners node present owner index
      (data_eq_phantom_of_identity_eq (identity node present) data)
    refine ⟨change card, List.mem_map_of_mem inside, ?_, (id inside).trans named⟩
    rwa [isCard_eq_of_identity_eq (identity card inside)]

end Node

/-- What can be done to a board. -/
inductive BoardAction where
  | drop (id : String)
  | autosort (catalogue : Catalogue)
  | sortByNesting
deriving DecidableEq

namespace Board

section

variable [Coordinate α]

/-- Does one thing to a board. -/
def perform (board : Board α) : BoardAction → Board α
  | .drop id => (board.drop id).1
  | .autosort catalogue => board.autosort catalogue
  | .sortByNesting => board.sortByNesting

/-- Does one thing after the other. -/
def performAll (board : Board α) (actions : List BoardAction) : Board α :=
  actions.foldl perform board

end

section

variable {board : Board α} {change : Node α → Node α}

theorem get?_map (board : Board α) (change : Node α → Node α) (id : String) :
    get? { board with nodes := board.nodes.map change } id = (board.get? id).map change := by
  simp only [get?, List.getElem?_map, Option.map_bind, Function.comp_def]

theorem Sound.map (sound : board.Sound)
    (identity : ∀ node ∈ board.nodes, (change node).identity = node.identity)
    (parents : ∀ node ∈ board.nodes, (change node).parent = node.parent ∨
      node.isGroup = false ∧ ∀ parent, (change node).parent = some parent →
        ∃ group ∈ board.nodes, group.isGroup ∧ group.id = parent) :
    Sound { board with nodes := board.nodes.map change } where
  index_eq := by
    rw [sound.index_eq, places_eq_zipIdx, places_eq_zipIdx, Node.ids_map identity]
  repaired := sound.repaired.map identity parents

theorem Sound.sortByNesting (sound : board.Sound) : board.sortByNesting.Sound :=
  ⟨rfl, sound.repaired.perm board.sortByNesting_perm.symm⟩

/-- Sorting leaves the nodes above a node as they are. -/
theorem Sound.ancestors_sortByNesting (sound : board.Sound) (id : String) :
    board.sortByNesting.ancestors id = board.ancestors id := by
  have perm := board.sortByNesting_perm
  rw [ancestors, ancestors, perm.length_eq,
    climb_eq_of_perm sound.sortByNesting.keyed sound.keyed perm]

end

/-! ## Tidying -/

section

variable [Coordinate α] (board : Board α) (catalogue : Catalogue)

@[simp] theorem identity_placeMember (node : Node α) :
    (board.placeMember catalogue node).identity = node.identity := by
  unfold placeMember
  split
  · cases data : node.data <;> simp [growGroup, data, Node.identity, NodeData.unsized]
  · split <;> rfl

@[simp] theorem parent_placeMember (node : Node α) :
    (board.placeMember catalogue node).parent = node.parent := by
  unfold placeMember
  split
  · cases data : node.data <;> simp [growGroup, data]
  · split <;> rfl

@[simp] theorem identity_placeTile (size : α × α) (order : List String) (node : Node α) :
    (placeTile size order node).identity = node.identity := by
  unfold placeTile
  split <;> rfl

@[simp] theorem parent_placeTile (size : α × α) (order : List String) (node : Node α) :
    (placeTile size order node).parent = node.parent := by
  unfold placeTile
  split <;> rfl

@[simp] theorem identity_placeFree (top : α) (order : List String) (node : Node α) :
    (placeFree top order node).identity = node.identity := by
  unfold placeFree
  split <;> rfl

@[simp] theorem parent_placeFree (top : α) (order : List String) (node : Node α) :
    (placeFree top order node).parent = node.parent := by
  unfold placeFree
  split <;> rfl

variable {board}

theorem Sound.arrangeGroups (sound : board.Sound) : (board.arrangeGroups catalogue).Sound :=
  sound.map (fun _ _ => identity_placeMember ..) fun _ _ => .inl (parent_placeMember ..)

theorem Sound.tileGroups (sound : board.Sound) : board.tileGroups.Sound :=
  sound.map (fun _ _ => identity_placeTile ..) fun _ _ => .inl (parent_placeTile ..)

theorem Sound.arrangeFree (sound : board.Sound) : (board.arrangeFree catalogue).Sound :=
  sound.map (fun _ _ => identity_placeFree ..) fun _ _ => .inl (parent_placeFree ..)

theorem Sound.autosort (sound : board.Sound) : (board.autosort catalogue).Sound :=
  ((sound.arrangeGroups catalogue).tileGroups).arrangeFree catalogue

variable (board) in
theorem map_identity_autosort :
    (board.autosort catalogue).nodes.map Node.identity = board.nodes.map Node.identity := by
  simp [Board.autosort, Board.arrangeFree, Board.tileGroups, Board.arrangeGroups, Function.comp_def]

end

/-! ## Runs -/

section

variable [Coordinate α] {board : Board α}

/-- A node that is no group can be put into any group. -/
theorem Sound.reattach (sound : board.Sound) {node : Node α} (member : node ∈ board.nodes)
    (single : node.isGroup = false) (absolute : Point α) {target : Option String}
    (grouped : ∀ parent, target = some parent →
      ∃ group ∈ board.nodes, group.isGroup ∧ group.id = parent) :
    (board.reattach node.id absolute target).Sound := by
  refine sound.map (fun other _ => ?_) fun other present => ?_
  · split <;> rfl
  · split
    · rename_i named
      rw [Node.eq_of_id_eq sound.repaired.distinct present member named]
      exact .inr ⟨single, grouped⟩
    · exact .inl rfl

theorem map_identity_reattach (board : Board α) (id : String) (absolute : Point α)
    (target : Option String) :
    (board.reattach id absolute target).nodes.map Node.identity =
      board.nodes.map Node.identity := by
  rw [Board.reattach, changeNode, List.map_map]
  refine List.map_congr_left fun node _ => ?_
  rw [Function.comp_apply]
  split <;> rfl

theorem Sound.drop (sound : board.Sound) (id : String) : (board.drop id).1.Sound := by
  obtain unchanged | ⟨node, rect, target, found, -, single, grouped, moved⟩ := board.drop_cases id
  · rwa [unchanged]
  · obtain ⟨member, rfl⟩ := sound.keyed.get?_eq_some_iff.mp found
    rw [moved]
    exact (sound.reattach member single rect.origin grouped).sortByNesting

theorem map_identity_drop_perm (board : Board α) (id : String) :
    ((board.drop id).1.nodes.map Node.identity).Perm (board.nodes.map Node.identity) := by
  obtain unchanged | ⟨node, rect, target, -, -, -, -, moved⟩ := board.drop_cases id
  · rw [unchanged]
  · rw [moved, ← board.map_identity_reattach id rect.origin target]
    exact (sortByNesting_perm _).map _

theorem Sound.perform (sound : board.Sound) (action : BoardAction) :
    (board.perform action).Sound := by
  cases action with
  | drop id => exact sound.drop id
  | autosort catalogue => exact sound.autosort catalogue
  | sortByNesting => exact sound.sortByNesting

theorem map_identity_perform_perm (board : Board α) (action : BoardAction) :
    ((board.perform action).nodes.map Node.identity).Perm (board.nodes.map Node.identity) := by
  cases action with
  | drop id => exact board.map_identity_drop_perm id
  | autosort catalogue => rw [Board.perform, board.map_identity_autosort catalogue]
  | sortByNesting => exact board.sortByNesting_perm.map _

theorem Sound.performAll (sound : board.Sound) (actions : List BoardAction) :
    (board.performAll actions).Sound :=
  List.foldlRecOn (motive := Board.Sound) actions _ sound fun _ held action _ => held.perform action

theorem map_identity_performAll_perm (board : Board α) (actions : List BoardAction) :
    ((board.performAll actions).nodes.map Node.identity).Perm (board.nodes.map Node.identity) :=
  List.foldlRecOn (motive := fun after : Board α =>
      (after.nodes.map Node.identity).Perm (board.nodes.map Node.identity)) actions _ (.refl _)
    fun after same action _ => (after.map_identity_perform_perm action).trans same

/-- **A board stays right whatever is done to it.** After any drops, tidyings and sortings of a
board that was built from nodes there is nothing to repair: IDs are distinct, parents are groups, no
chain of parents closes on itself, and phantoms have a card. Nodes are found by their IDs, and they
are the nodes that there were, with their labels, cards and phantoms. So every walk upwards comes to
an end, at nodes of the board all along, sitting above is a strict order, and it is one of depth. -/
theorem performAll_ofNodes_sound (nodes : List (Node α)) (actions : List BoardAction) :
    let board := (ofNodes nodes).performAll actions
    Node.Repaired board.nodes ∧
      (∀ id, board.get? id = board.nodes.find? (·.id == id)) ∧
      (board.nodes.map Node.identity).Perm ((ofNodes nodes).nodes.map Node.identity) ∧
      (∀ id, board.Climbs id (board.ancestors id)) ∧
      (∀ node ∈ board.nodes, ∃ above : List (Node α),
        (board.ancestors node.id).map board.get? = above.map some ∧
          board.absolutePosition? node.id =
            some (above.foldl (fun point group => point.offset group.position) node.position)) ∧
      (∀ id, board.isDescendant id id = false) ∧
      (∀ low middle high, board.isDescendant low middle → board.isDescendant middle high →
        board.isDescendant low high) ∧
      ∀ id ancestor, board.isDescendant id ancestor → board.depth ancestor < board.depth id := by
  intro board
  have sound : board.Sound := (sound_ofNodes nodes).performAll actions
  refine ⟨sound.repaired, sound.get?_eq_find?, map_identity_performAll_perm _ actions,
    sound.climbs_ancestors, fun node member => ?_, sound.isDescendant_self,
    fun _ _ _ => sound.isDescendant_trans, fun _ _ => sound.depth_lt_of_isDescendant⟩
  obtain ⟨above, met⟩ := sound.exists_map_get?_ancestors node.id
  exact ⟨above, met, sound.absolutePosition?_id member met⟩

end

open scoped ExactCoordinates

/-- A free card over two groups, each of which is given as the parent of the other. -/
def looseBoard : List (Node Int) :=
  [⟨"shock", ⟨20, 20⟩, none, .card "shock" .main .normal none⟩,
    ⟨"outer", ⟨0, 0⟩, some "inner", .group "Outer" 400 400⟩,
    ⟨"inner", ⟨10, 10⟩, some "outer", .group "Inner" 200 200⟩]

theorem performAll_ofNodes_sound_looseBoard :
    let board := (ofNodes looseBoard).performAll [.drop "shock", .sortByNesting]
    board.isDescendant "shock" "inner" ∧ board.isDescendant "inner" "outer" ∧
      board.isDescendant "shock" "outer" ∧ board.depth "inner" < board.depth "shock" := by
  intro board
  have shock : (ofNodes looseBoard).get? "shock" =
      some ⟨"shock", ⟨20, 20⟩, none, .card "shock" .main .normal none⟩ := by
    decide +kernel
  have place : (ofNodes looseBoard).absoluteRect? "shock" = some ⟨⟨20, 20⟩, 100, 140⟩ := by
    decide +kernel
  have target : (ofNodes looseBoard).dropTarget
      ⟨"shock", ⟨20, 20⟩, none, .card "shock" .main .normal none⟩
      ((ofNodes looseBoard).groupsOver ⟨⟨20, 20⟩, 100, 140⟩) = some "inner" := by
    decide +kernel
  let dropped := (ofNodes looseBoard).reattach "shock" ⟨20, 20⟩ (some "inner")
  have sound : dropped.Sound :=
    (sound_ofNodes looseBoard).reattach
      ((sound_ofNodes looseBoard).keyed.get?_eq_some_iff.mp shock).1 rfl ⟨20, 20⟩ <| by
        rintro _ ⟨⟩
        decide +kernel
  have ancestors (id : String) : board.ancestors id = dropped.ancestors id := by
    have outcome := drop_eq shock place rfl
    rw [target] at outcome
    have sorted : board = dropped.sortByNesting.sortByNesting :=
      congrArg (fun after => after.1.sortByNesting) outcome
    rw [sorted, sound.sortByNesting.ancestors_sortByNesting, sound.ancestors_sortByNesting]
  have below : board.isDescendant "shock" "inner" := by
    rw [isDescendant, ancestors]
    decide +kernel
  have nested : board.isDescendant "inner" "outer" := by
    rw [isDescendant, ancestors]
    decide +kernel
  obtain ⟨-, -, -, -, -, -, trans, deeper⟩ :=
    performAll_ofNodes_sound looseBoard [.drop "shock", .sortByNesting]
  exact ⟨below, nested, trans _ _ _ below nested, deeper _ _ below⟩

end Board

end DeckBuilder
