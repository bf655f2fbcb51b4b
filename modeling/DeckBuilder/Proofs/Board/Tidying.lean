import DeckBuilder.Proofs.Board.Positions
import DeckBuilder.Proofs.Board.Runs

/-! # Tidied boards

Tidying puts every member of a group into a cell that the group has room for, and every free card
below all groups that are in no other group. A group inside another one grows as well, but it stays
where it is in it.
-/

namespace DeckBuilder.Board

variable {α : Type}

section

variable {board : Board α} {catalogue : Catalogue}

theorem byName_perm (nodes : List (Node α)) :
    (board.byName catalogue nodes).Perm (nodes.map (·.id)) :=
  ((List.mergeSort_perm _ _).map _).trans (.of_eq (List.map_map ..))

/-- Every node in a group that is no group itself is laid out in it. -/
theorem mem_members {node : Node α} (member : node ∈ board.nodes) (single : node.isGroup = false)
    {group : String} (below : node.parent = some group) :
    node.id ∈ board.members catalogue group := by
  have child : node ∈ board.children group :=
    List.mem_filter.mpr ⟨member, beq_iff_eq.mpr below⟩
  rw [members, List.mem_append, (byName_perm _).mem_iff, (byName_perm _).mem_iff]
  cases data : node.data with
  | card =>
    exact .inl (List.mem_map_of_mem (List.mem_filter.mpr ⟨child, by rw [Node.isCard, data]⟩))
  | phantom =>
    exact .inr (List.mem_map_of_mem (List.mem_filter.mpr ⟨child, by rw [Node.isPhantom, data]⟩))
  | group => simp [Node.isGroup, data] at single

theorem cell_le_needed {index members : Nat} (inside : index < members) :
    index % groupColumns * cellWidth + cardMargin + cardWidth ≤ neededWidth members ∧
      index / groupColumns * cellHeight + cardMargin + cardHeight ≤ neededHeight members := by
  simp only [groupColumns, cellWidth, cellHeight, cardMargin, neededWidth, neededHeight, cardWidth,
    cardHeight, headerHeight]
  omega

end

section

variable [Coordinate α] {board : Board α} {catalogue : Catalogue}

/-! ## What is moved where -/

theorem placeMember_of_isGroup {node : Node α} (isGroup : node.isGroup) :
    board.placeMember catalogue node =
      growGroup node (board.members catalogue node.id).length :=
  if_pos isGroup

theorem position_placeMember {node : Node α} (single : node.isGroup = false) {group : String}
    (below : node.parent = some group) :
    (board.placeMember catalogue node).position =
      memberPoint ((board.members catalogue group).idxOf node.id) := by
  simp only [placeMember, single, Bool.false_eq_true, ↓reduceIte, below]

theorem placeTile_of_single {size : α × α} {order : List String} {node : Node α}
    (single : node.isGroup = false) : placeTile size order node = node := by
  simp only [placeTile, single, Bool.false_and, Bool.false_eq_true, ↓reduceIte]

theorem placeFree_of_grouped {top : α} {order : List String} {node : Node α} {group : String}
    (below : node.parent = some group) : placeFree top order node = node := by
  simp only [placeFree, below, Option.isNone_some, Bool.and_false, Bool.false_eq_true, ↓reduceIte]

theorem placeFree_of_isGroup {top : α} {order : List String} {node : Node α}
    (isGroup : node.isGroup) : placeFree top order node = node := by
  have noCard : node.isCard = false := Bool.eq_false_iff.mpr fun isCard => by
    simp [Node.isGroup_eq_false_of_isCard isCard] at isGroup
  simp only [placeFree, noCard, Bool.false_and, Bool.false_eq_true, ↓reduceIte]

@[simp] theorem data_placeTile (size : α × α) (order : List String) (node : Node α) :
    (placeTile size order node).data = node.data := by
  unfold placeTile
  split <;> rfl

omit [Coordinate α] in
theorem mem_topGroups {group : Node α} :
    group ∈ board.topGroups ↔ group ∈ board.nodes ∧ group.isGroup ∧ group.parent = none := by
  rw [topGroups, List.mem_mergeSort, List.mem_filter, Bool.and_eq_true, Option.isNone_iff_eq_none]

omit [Coordinate α] in
theorem nodup_id_topGroups (distinct : (board.nodes.map (·.id)).Nodup) :
    (board.topGroups.map (·.id)).Nodup :=
  ((List.mergeSort_perm _ _).map _).nodup_iff.mpr (distinct.sublist (List.filter_sublist.map _))

@[simp] theorem isGroup_placeTile (size : α × α) (order : List String) (node : Node α) :
    (placeTile size order node).isGroup = node.isGroup := by
  rw [Node.isGroup, data_placeTile, Node.isGroup]

theorem size_placeTile (size : α × α) (order : List String) (node : Node α) :
    (placeTile size order node).width = node.width ∧
      (placeTile size order node).height = node.height :=
  Node.size_eq_of_data_eq (data_placeTile size order node)

/-- Tiling keeps the groups in their order. -/
theorem topGroups_tileGroups :
    board.tileGroups.topGroups =
      board.topGroups.map (placeTile (tileSize board.topGroups) (board.topGroups.map (·.id))) := by
  -- The map mentions the groups of the board itself, which are not to be unfolded in it.
  generalize same : placeTile (tileSize board.topGroups) (board.topGroups.map (·.id)) = tile
  have isGroup (node : Node α) : (tile node).isGroup = node.isGroup := by
    rw [← same, isGroup_placeTile]
  have parent (node : Node α) : (tile node).parent = node.parent := by
    rw [← same, parent_placeTile]
  have data (node : Node α) : (tile node).data = node.data := by
    rw [← same, data_placeTile]
  rw [topGroups, tileGroups, same, List.filter_map, topGroups, List.map_mergeSort]
  · simp only [Function.comp_def, isGroup, parent]
    rfl
  · intro first _ second _
    simp only [data]

theorem tileSize_tileGroups :
    tileSize board.tileGroups.topGroups = tileSize board.topGroups := by
  simp only [topGroups_tileGroups, tileSize, List.map_map, Function.comp_def, (size_placeTile ..).1,
    (size_placeTile ..).2]

/-- The first group is in the first cell, and so on. -/
theorem position_topGroups_tileGroups (distinct : (board.nodes.map (·.id)).Nodup) {index : Nat}
    {group : Node α} (found : board.tileGroups.topGroups[index]? = some group) :
    group.position = tilePoint (tileSize board.topGroups) index := by
  rw [topGroups_tileGroups, List.getElem?_map, Option.map_eq_some_iff] at found
  obtain ⟨before, present, rfl⟩ := found
  obtain ⟨bound, rfl⟩ := List.getElem?_eq_some_iff.mp present
  have tiled := mem_topGroups.mp (List.getElem_mem bound)
  have place : (board.topGroups.map (·.id)).idxOf board.topGroups[index].id = index := by
    have listed := (nodup_id_topGroups distinct).idxOf_getElem index (by simpa using bound)
    rwa [List.getElem_map] at listed
  simp only [placeTile, tiled.2.1, tiled.2.2, Option.isNone_none, Bool.and_self, ↓reduceIte, place]

/-- Every card and phantom in a group is put into the cell of its place among the members. -/
theorem cell_of_mem_arrangeGroups {node : Node α}
    (member : node ∈ (board.arrangeGroups catalogue).nodes) (single : node.isGroup = false)
    {group : String} (below : node.parent = some group) :
    node.id ∈ board.members catalogue group ∧
      node.position = memberPoint ((board.members catalogue group).idxOf node.id) := by
  obtain ⟨before, present, rfl⟩ := List.mem_map.mp member
  rw [Node.isGroup_eq_of_identity_eq (identity_placeMember ..)] at single
  rw [parent_placeMember] at below
  rw [Node.id_eq_of_identity_eq (identity_placeMember ..)]
  exact ⟨mem_members present single below, position_placeMember single below⟩

/-- Groups and what is in them are laid out before the free cards. -/
theorem mem_of_mem_arrangeFree {node : Node α}
    (member : node ∈ (board.arrangeFree catalogue).nodes)
    (other : node.isGroup ∨ node.parent ≠ none) : node ∈ board.nodes := by
  obtain ⟨before, present, rfl⟩ := List.mem_map.mp member
  rw [Node.isGroup_eq_of_identity_eq (identity_placeFree ..), parent_placeFree] at other
  rcases other with isGroup | grouped
  · rwa [placeFree_of_isGroup isGroup]
  · obtain ⟨group, below⟩ := Option.ne_none_iff_exists'.mp grouped
    rwa [placeFree_of_grouped below]

/-- Tiling only moves groups. -/
theorem mem_of_mem_tileGroups {node : Node α} (member : node ∈ board.tileGroups.nodes)
    (single : node.isGroup = false) : node ∈ board.nodes := by
  obtain ⟨before, present, rfl⟩ := List.mem_map.mp member
  rw [isGroup_placeTile] at single
  rwa [placeTile_of_single single]

theorem cell_of_mem_autosort {node : Node α} (member : node ∈ (board.autosort catalogue).nodes)
    (single : node.isGroup = false) {group : String} (below : node.parent = some group) :
    node.id ∈ board.members catalogue group ∧
      node.position = memberPoint ((board.members catalogue group).idxOf node.id) := by
  have tiled := mem_of_mem_arrangeFree member (.inr (below.trans_ne (Option.some_ne_none group)))
  exact cell_of_mem_arrangeGroups (mem_of_mem_tileGroups tiled single) single below

omit [Coordinate α] in
/-- The free cards in the order in which they are laid out. -/
def freeOrder (board : Board α) (catalogue : Catalogue) : List String :=
  board.byName catalogue (board.nodes.filter fun node => node.isCard && node.parent.isNone)

/-- Every free card is put into the cell of its place among the free cards. -/
theorem cell_of_mem_arrangeFree {card : Node α}
    (member : card ∈ (board.arrangeFree catalogue).nodes) (isCard : card.isCard)
    (free : card.parent = none) :
    card.id ∈ board.freeOrder catalogue ∧
      card.position = freePoint board.freeTop ((board.freeOrder catalogue).idxOf card.id) := by
  obtain ⟨before, present, rfl⟩ := List.mem_map.mp member
  rw [Node.isCard_eq_of_identity_eq (identity_placeFree ..)] at isCard
  rw [parent_placeFree] at free
  have listed : (before.isCard && before.parent.isNone) = true := by rw [isCard, free]; rfl
  rw [Node.id_eq_of_identity_eq (identity_placeFree ..), placeFree, if_pos listed]
  exact ⟨(byName_perm _).mem_iff.mpr
    (List.mem_map_of_mem (List.mem_filter.mpr ⟨present, listed⟩)), rfl⟩

end

open scoped ExactCoordinates

variable [Ring α] [LinearOrder α] {board : Board α} {catalogue : Catalogue}

/-- A group is not below the least size and has the room that a number of members needs. -/
structure HasRoom (group : Node α) (members : Nat) : Prop where
  leastWidth : (leastGroupSize : α) ≤ group.width
  leastHeight : (leastGroupSize : α) ≤ group.height
  width : (neededWidth members : α) ≤ group.width
  height : (neededHeight members : α) ≤ group.height

theorem hasRoom_growGroup {group : Node α} (isGroup : group.isGroup) (members : Nat) :
    HasRoom (growGroup group members) members := by
  cases data : group.data with
  | group label width height =>
    have least (size : α) (needed : Nat) :
        (leastGroupSize : α) ≤ larger (larger size leastGroupSize) needed :=
      (le_larger_right ..).trans (le_larger_left ..)
    simp only [growGroup, data]
    exact ⟨least .., least .., le_larger_right .., le_larger_right ..⟩
  | _ => simp [Node.isGroup, data] at isGroup

/-- A group has been grown to what its members need. -/
theorem hasRoom_of_mem_autosort {group : Node α}
    (member : group ∈ (board.autosort catalogue).nodes) (isGroup : group.isGroup) :
    HasRoom group (board.members catalogue group.id).length := by
  obtain ⟨grown, present, rfl⟩ := List.mem_map.mp (mem_of_mem_arrangeFree member (.inl isGroup))
  obtain ⟨before, -, rfl⟩ := List.mem_map.mp present
  rw [isGroup_placeTile, Node.isGroup_eq_of_identity_eq (identity_placeMember ..)] at isGroup
  obtain ⟨width, height⟩ := size_placeTile (tileSize (board.arrangeGroups catalogue).topGroups)
    ((board.arrangeGroups catalogue).topGroups.map (·.id)) (board.placeMember catalogue before)
  rw [Node.id_eq_of_identity_eq (identity_placeTile ..),
    Node.id_eq_of_identity_eq (identity_placeMember ..)]
  have room := hasRoom_growGroup isGroup (board.members catalogue before.id).length
  rw [← placeMember_of_isGroup isGroup] at room
  exact ⟨room.leastWidth.trans_eq width.symm, room.leastHeight.trans_eq height.symm,
    room.width.trans_eq width.symm, room.height.trans_eq height.symm⟩

variable [IsStrictOrderedRing α]

/-! ## Members of groups -/

/-- The cells of the members of a group lie inside what they need. -/
theorem memberPoint_fits {index members : Nat} (inside : index < members) :
    (0 ≤ (memberPoint index : Point α).x ∧
      (memberPoint index : Point α).x + (cardWidth : α) ≤ neededWidth members) ∧
    0 ≤ (memberPoint index : Point α).y ∧
      (memberPoint index : Point α).y + (cardHeight : α) ≤ neededHeight members := by
  obtain ⟨across, down⟩ := cell_le_needed inside
  refine ⟨⟨Nat.cast_nonneg _, ?_⟩, Nat.cast_nonneg _, ?_⟩
  · rw [memberPoint, ← Nat.cast_add]
    exact Nat.cast_le.mpr across
  · rw [memberPoint, ← Nat.cast_add]
    exact Nat.cast_le.mpr down

/-- Every card and phantom in a group lies inside it on a tidied board. -/
theorem Sound.covers_autosort (sound : board.Sound) {node : Node α}
    (member : node ∈ (board.autosort catalogue).nodes) (single : node.isGroup = false)
    {parent : String} (below : node.parent = some parent) :
    (board.autosort catalogue).Covers parent node.id := by
  have tidy := sound.autosort catalogue
  obtain ⟨group, inside, isGroup, rfl⟩ :=
    tidy.exists_group_of_parent? ((tidy.parent?_id member).trans below)
  obtain ⟨listed, cell⟩ := cell_of_mem_autosort member single below
  have room := hasRoom_of_mem_autosort inside isGroup
  obtain ⟨⟨left, right⟩, top, bottom⟩ :=
    memberPoint_fits (α := α) (List.idxOf_lt_length_of_mem listed)
  rw [← cell] at left right top bottom
  obtain ⟨width, height⟩ := Node.size_of_single single
  rw [← width] at right
  rw [← height] at bottom
  exact tidy.covers_of_parent inside member below ⟨left, right.trans room.width⟩
    ⟨top, bottom.trans room.height⟩

/-- So it overlaps its group. -/
theorem Sound.overlaps_autosort (sound : board.Sound) {node : Node α}
    (member : node ∈ (board.autosort catalogue).nodes) (single : node.isGroup = false)
    {parent : String} (below : node.parent = some parent) :
    (board.autosort catalogue).Overlaps parent node.id :=
  (sound.covers_autosort member single below).overlaps
    ((sound.autosort catalogue).overlaps_self member single)

/-! ## Free cards -/

/-- The free cards start below every tiled group. -/
theorem bottom_le_freeTop (distinct : (board.nodes.map (·.id)).Nodup) {group : Node α}
    (member : group ∈ board.tileGroups.nodes) (isGroup : group.isGroup)
    (outside : group.parent = none) :
    group.position.y + group.height + (freeGap : α) ≤ board.tileGroups.freeTop := by
  have listed : group ∈ board.tileGroups.topGroups := mem_topGroups.mpr ⟨member, isGroup, outside⟩
  have nonempty : board.tileGroups.topGroups.isEmpty = false :=
    List.isEmpty_eq_false_iff_exists_mem.mpr ⟨group, listed⟩
  obtain ⟨index, found⟩ := List.mem_iff_getElem?.mp listed
  have lowest := le_foldl_larger
    (fun entry : Node α × Nat =>
      (tilePoint (tileSize board.topGroups) entry.2).y + entry.1.height)
    (List.mk_mem_zipIdx_iff_getElem?.mpr found) ((0 : Nat) : α)
  rw [position_topGroups_tileGroups distinct found, freeTop, nonempty, tileBottom,
    tileSize_tileGroups]
  exact add_le_add_left lowest _

theorem freeTop_le_of_mem_arrangeFree {card : Node α}
    (member : card ∈ (board.arrangeFree catalogue).nodes) (isCard : card.isCard)
    (free : card.parent = none) : board.freeTop ≤ card.position.y := by
  rw [(cell_of_mem_arrangeFree member isCard free).2]
  exact le_add_of_nonneg_right (Nat.cast_nonneg _)

/-- Every free card lies below every group that is in no other group. -/
theorem Sound.under_autosort (sound : board.Sound) {group card : Node α}
    (inside : group ∈ (board.autosort catalogue).nodes) (isGroup : group.isGroup)
    (outside : group.parent = none) (member : card ∈ (board.autosort catalogue).nodes)
    (isCard : card.isCard) (free : card.parent = none) :
    (board.autosort catalogue).Under card.id group.id := by
  have tidy := sound.autosort catalogue
  have bottom := bottom_le_freeTop (sound.arrangeGroups catalogue).repaired.distinct
    (mem_of_mem_arrangeFree inside (.inl isGroup)) isGroup outside
  have top := freeTop_le_of_mem_arrangeFree member isCard free
  have gap : (0 : α) < (freeGap : α) := Nat.cast_pos.mpr (by decide)
  exact ⟨_, _, tidy.absoluteRect?_id member (tidy.absolutePosition?_of_free member free),
    tidy.absoluteRect?_id inside (tidy.absolutePosition?_of_free inside outside),
    (lt_add_of_pos_right _ gap).trans_le (bottom.trans top)⟩

/-! ## A tidied board -/

/-- A free card, and a card in a group with a group inside that reaches out of it at the bottom. -/
def crowdedBoard : List (Node Int) :=
  [⟨"outer", ⟨0, 0⟩, none, .group "Outer" 200 200⟩,
    ⟨"inner", ⟨10, 100⟩, some "outer", .group "Inner" 60 60⟩,
    ⟨"island", ⟨0, 0⟩, some "outer", .card "island" .main .normal none⟩,
    ⟨"shock", ⟨500, 0⟩, none, .card "shock" .main .normal none⟩]

/-- The crowded board when it is tidied. -/
def tidiedBoard : List (Node Int) :=
  [⟨"outer", ⟨0, 0⟩, none, .group "Outer" 200 236⟩,
    ⟨"inner", ⟨10, 100⟩, some "outer", .group "Inner" 180 236⟩,
    ⟨"island", ⟨12, 12⟩, some "outer", .card "island" .main .normal none⟩,
    ⟨"shock", ⟨12, 316⟩, none, .card "shock" .main .normal none⟩]

theorem autosort_crowdedBoard (catalogue : Catalogue) :
    (ofNodes crowdedBoard).autosort catalogue = indexed tidiedBoard := by
  rw [← ((sound_ofNodes crowdedBoard).autosort catalogue).keyed.indexed_nodes, autosort]
  congr 1
  -- There is at most one item in every list that is sorted, so the nodes tell all.
  have nodes : (ofNodes crowdedBoard).nodes = crowdedBoard := by decide +kernel
  generalize ofNodes crowdedBoard = board at nodes
  have outer : board.members catalogue "outer" = ["island"] := by
    simp [members, children, nodes, crowdedBoard, byName, Node.isCard, Node.isPhantom]
  have inner : board.members catalogue "inner" = [] := by
    simp [members, children, nodes, crowdedBoard, byName]
  have grown : (board.arrangeGroups catalogue).nodes =
      [⟨"outer", ⟨0, 0⟩, none, .group "Outer" 200 236⟩,
        ⟨"inner", ⟨10, 100⟩, some "outer", .group "Inner" 180 236⟩,
        ⟨"island", ⟨12, 12⟩, some "outer", .card "island" .main .normal none⟩,
        ⟨"shock", ⟨500, 0⟩, none, .card "shock" .main .normal none⟩] := by
    simp only [arrangeGroups, nodes, crowdedBoard, List.map_cons, List.map_nil, placeMember, outer,
      inner, Node.isGroup, Bool.false_eq_true, ↓reduceIte]
    decide +kernel
  generalize board.arrangeGroups catalogue = board at grown
  have groups : board.topGroups = [⟨"outer", ⟨0, 0⟩, none, .group "Outer" 200 236⟩] := by
    simp [topGroups, grown, Node.isGroup]
  have tiled : board.tileGroups.nodes = board.nodes := by
    simp only [tileGroups, groups, grown]
    decide +kernel
  have top : board.tileGroups.freeTop = 316 := by
    simp only [freeTop, topGroups_tileGroups, groups]
    decide +kernel
  rw [grown] at tiled
  have order : board.tileGroups.byName catalogue (board.tileGroups.nodes.filter fun node =>
      node.isCard && node.parent.isNone) = ["shock"] := by
    simp [tiled, byName, Node.isCard]
  simp only [arrangeFree, top, order]
  rw [tiled]
  decide +kernel

end DeckBuilder.Board
