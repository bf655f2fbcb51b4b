import DeckBuilder.Deck.Reconcile
import DeckBuilder.Proofs.Board.Repair

/-! # Zones of a board

The zones that a board is turned into list the children of its groups, and looking the zones up
again gives the parents of the nodes back.
-/

namespace DeckBuilder

variable {α : Type}

namespace Board

variable {board : Board α}

theorem zone?_eq_some {node : Node α} {zone : Zone α} (shown : board.zone? node = some zone) :
    node.data = .group zone.name zone.width zone.height ∧ zone.id = node.id ∧
      zone.position = node.position := by
  cases data : node.data with
  | card | phantom => simp [zone?, data] at shown
  | group label width height =>
    simp only [zone?, data, Option.some.injEq] at shown
    subst shown
    exact ⟨rfl, rfl, rfl⟩

theorem exists_zone? (board : Board α) {node : Node α} (isGroup : node.isGroup) :
    ∃ zone, board.zone? node = some zone := by
  cases data : node.data with
  | card | phantom => simp [Node.isGroup, data] at isGroup
  | group label width height => simp [zone?, data]

theorem isGroup_of_zone? {node : Node α} {zone : Zone α} (shown : board.zone? node = some zone) :
    node.isGroup := by
  simp [Node.isGroup, (zone?_eq_some shown).1]

theorem mem_toZones {zone : Zone α} :
    zone ∈ board.toZones ↔ ∃ node ∈ board.nodes, board.zone? node = some zone := by
  unfold toZones
  rw [List.mem_filterMap]

/-- A zone lists the card nodes and the groups that point at its own group. -/
theorem children_eq {zone : Zone α} (member : zone ∈ board.toZones) :
    zone.cardChildren = ((board.children zone.id).filter (·.isCard)).map (·.id) ∧
      zone.zoneChildren = ((board.children zone.id).filter (·.isGroup)).map (·.id) := by
  obtain ⟨node, -, shown⟩ := mem_toZones.mp member
  cases data : node.data with
  | card | phantom => simp [zone?, data] at shown
  | group label width height =>
    simp only [zone?, data, Option.some.injEq] at shown
    subst shown
    exact ⟨rfl, rfl⟩

theorem mem_map_id_children {kind : Node α → Bool} {outer id : String} :
    id ∈ ((board.children outer).filter kind).map (·.id) ↔
      ∃ child ∈ board.nodes, kind child ∧ child.parent = some outer ∧ child.id = id := by
  simp [children, and_comm, and_left_comm]

/-- A node of a kind is listed just where it points. -/
theorem id_mem_map_id_children (distinct : (board.nodes.map (·.id)).Nodup) {node : Node α}
    (member : node ∈ board.nodes) {kind : Node α → Bool} (isKind : kind node) {outer : String} :
    node.id ∈ ((board.children outer).filter kind).map (·.id) ↔ node.parent = some outer := by
  rw [mem_map_id_children]
  constructor
  · intro listed
    obtain ⟨child, present, -, above, named⟩ := listed
    rwa [Node.eq_of_id_eq distinct present member named] at above
  · intro above
    exact ⟨node, member, isKind, above, rfl⟩

/-- The zones of a board have the IDs of its groups. -/
theorem any_id_toZones (id : String) :
    board.toZones.any (·.id == id) = Node.namesGroup board.nodes id := by
  rw [Bool.eq_iff_iff, Node.namesGroup_eq_true_iff, List.any_eq_true]
  constructor
  · intro known
    obtain ⟨zone, member, named⟩ := known
    obtain ⟨node, present, shown⟩ := mem_toZones.mp member
    exact ⟨node, present, isGroup_of_zone? shown,
      (zone?_eq_some shown).2.1.symm.trans (beq_iff_eq.mp named)⟩
  · intro known
    obtain ⟨node, present, isGroup, named⟩ := known
    obtain ⟨zone, shown⟩ := exists_zone? board isGroup
    exact ⟨zone, mem_toZones.mpr ⟨node, present, shown⟩,
      beq_iff_eq.mpr ((zone?_eq_some shown).2.1.trans named)⟩

/-- The parents of the nodes are among the zones. -/
theorem filter_any_toZones (repaired : Node.Repaired board.nodes) {node : Node α}
    (member : node ∈ board.nodes) :
    (node.parent.filter fun parent => board.toZones.any (·.id == parent)) = node.parent := by
  cases above : node.parent with
  | none => rfl
  | some parent =>
    obtain ⟨-, group, present, isGroup, named⟩ := repaired.parents node member parent above
    have known : board.toZones.any (·.id == parent) = true := by
      rw [any_id_toZones]
      exact Node.namesGroup_eq_true_iff.mpr ⟨group, present, isGroup, named⟩
    simp only [Option.filter_some, known, ↓reduceIte]

/-- A look-up among the zones that singles out the zone of a node's parent gives that parent. -/
theorem map_id_find?_toZones (repaired : Node.Repaired board.nodes) {node : Node α}
    (member : node ∈ board.nodes) {wanted : Zone α → Bool}
    (spec : ∀ zone ∈ board.toZones, wanted zone = true ↔ node.parent = some zone.id) :
    (board.toZones.find? wanted).map (·.id) = node.parent := by
  cases found : board.toZones.find? wanted with
  | some zone =>
    have inside := List.mem_of_find?_eq_some found
    exact ((spec zone inside).mp (List.find?_some found)).symm
  | none =>
    rw [List.find?_eq_none] at found
    cases above : node.parent with
    | none => rfl
    | some parent =>
      obtain ⟨-, group, present, isGroup, named⟩ := repaired.parents node member parent above
      obtain ⟨zone, shown⟩ := exists_zone? board isGroup
      have inside := mem_toZones.mpr ⟨group, present, shown⟩
      refine (found zone inside ((spec zone inside).mpr ?_)).elim
      rw [above, (zone?_eq_some shown).2.1, named]

end Board

namespace Deck

section

variable {deck : Deck α} {board : Board α} (zones : deck.zones = board.toZones)
  (repaired : Node.Repaired board.nodes)

include zones repaired

/-- The zones list every card node under its parent. -/
theorem cardParent?_eq_parent {node : Node α} (member : node ∈ board.nodes)
    (isCard : node.isCard) : deck.cardParent? node.id = node.parent := by
  unfold cardParent?
  rw [zones]
  refine Board.map_id_find?_toZones repaired member fun zone inside => ?_
  rw [List.contains_iff_mem, (Board.children_eq inside).1,
    Board.id_mem_map_id_children repaired.distinct member isCard]

/-- The zones list every group under its parent. -/
theorem zoneParent?_eq_parent {node : Node α} (member : node ∈ board.nodes)
    (isGroup : node.isGroup) : deck.zoneParent? node.id = node.parent := by
  unfold zoneParent?
  rw [zones]
  refine Board.map_id_find?_toZones repaired member fun zone inside => ?_
  rw [Bool.and_eq_true, List.contains_iff_mem, (Board.children_eq inside).2,
    Board.id_mem_map_id_children repaired.distinct member isGroup, bne_iff_ne]
  exact and_iff_right_of_imp fun above => (repaired.parents node member zone.id above).1

theorem knownParent?_eq_parent {node : Node α} (member : node ∈ board.nodes) :
    deck.knownParent? node.placement = node.parent := by
  unfold knownParent? namesZone
  rw [zones]
  exact Board.filter_any_toZones repaired member

/-- A group becomes a zone and comes back. -/
theorem zoneNode_eq {node : Node α} (member : node ∈ board.nodes) {zone : Zone α}
    (shown : board.zone? node = some zone) : deck.zoneNode zone = node := by
  obtain ⟨data, named, position⟩ := Board.zone?_eq_some shown
  have parent := zoneParent?_eq_parent zones repaired member (Board.isGroup_of_zone? shown)
  rw [zoneNode, named, position, parent, ← data]

/-- The groups of a board become zones and come back, in order. -/
theorem map_zoneNode_toZones :
    board.toZones.map deck.zoneNode = board.nodes.filter (·.isGroup) := by
  unfold Board.toZones
  rw [List.map_filterMap, ← List.filterMap_eq_filter]
  apply List.filterMap_congr
  intro node member
  by_cases isGroup : node.isGroup
  · obtain ⟨zone, shown⟩ := Board.exists_zone? board isGroup
    rw [shown, Option.map_some, zoneNode_eq zones repaired member shown]
    simp [Option.guard, isGroup]
  · cases shown : board.zone? node with
    | none => simp [Option.guard, isGroup]
    | some zone => exact absurd (Board.isGroup_of_zone? shown) isGroup

end

end Deck

end DeckBuilder
