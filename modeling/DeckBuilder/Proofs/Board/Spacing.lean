import DeckBuilder.Proofs.Board.Tidying

/-! # Spacing on tidied boards

Tidying lays out the groups that are in no group, the members of every group and the free cards in
one grid each. The cells of a grid keep apart, members lie inside their group, and the free cards
are below all groups that are in no group. Groups inside other ones stay where they are in them.
-/

namespace DeckBuilder

variable {α : Type} [Ring α] [LinearOrder α]

open scoped ExactCoordinates

namespace Node

/-- What tidying keeps of a node: all but its position and, if it is a group, a smaller size. -/
structure Grows (before after : Node α) : Prop where
  identity : after.identity = before.identity
  parent : after.parent = before.parent
  width : before.width ≤ after.width
  height : before.height ≤ after.height

variable {first second third : Node α}

theorem Grows.trans (grows : first.Grows second) (further : second.Grows third) :
    first.Grows third :=
  ⟨further.identity.trans grows.identity, further.parent.trans grows.parent,
    grows.width.trans further.width, grows.height.trans further.height⟩

theorem grows_of_data_eq (id : second.id = first.id) (parent : second.parent = first.parent)
    (data : second.data = first.data) : first.Grows second := by
  obtain ⟨width, height⟩ := size_eq_of_data_eq data
  refine ⟨?_, parent, width.ge, height.ge⟩
  rw [Node.identity, Node.identity, id, data]

end Node

namespace Board

variable {board : Board α} {catalogue : Catalogue}

/-! ## What tidying keeps -/

theorem grows_growGroup (node : Node α) (members : Nat) : node.Grows (growGroup node members) := by
  cases data : node.data with
  | group label width height =>
    simp only [growGroup, data]
    refine ⟨?_, rfl, ?_, ?_⟩
    · rw [Node.identity, Node.identity, data, NodeData.unsized, NodeData.unsized]
    · simp only [Node.width, data]
      exact (le_larger_left ..).trans (le_larger_left ..)
    · simp only [Node.height, data]
      exact (le_larger_left ..).trans (le_larger_left ..)
  | _ =>
    simp only [growGroup, data]
    exact Node.grows_of_data_eq rfl rfl rfl

theorem grows_placeMember (board : Board α) (catalogue : Catalogue) (node : Node α) :
    node.Grows (board.placeMember catalogue node) := by
  unfold placeMember
  split
  · exact grows_growGroup node _
  · split
    · exact Node.grows_of_data_eq rfl rfl rfl
    · exact Node.grows_of_data_eq rfl rfl rfl

theorem grows_placeTile (size : α × α) (order : List String) (node : Node α) :
    node.Grows (placeTile size order node) := by
  unfold placeTile
  split
  · exact Node.grows_of_data_eq rfl rfl rfl
  · exact Node.grows_of_data_eq rfl rfl rfl

theorem grows_placeFree (top : α) (order : List String) (node : Node α) :
    node.Grows (placeFree top order node) := by
  unfold placeFree
  split
  · exact Node.grows_of_data_eq rfl rfl rfl
  · exact Node.grows_of_data_eq rfl rfl rfl

theorem forall₂_grows_autosort (board : Board α) (catalogue : Catalogue) :
    List.Forall₂ Node.Grows board.nodes (board.autosort catalogue).nodes := by
  simp only [autosort, arrangeFree, tileGroups, arrangeGroups, List.forall₂_map_right_iff,
    List.forall₂_same]
  intro node _
  exact (grows_placeMember board catalogue node).trans
    ((grows_placeTile ..).trans (grows_placeFree ..))

variable [IsStrictOrderedRing α]

/-! ## Cells -/

/-- A node lies in a cell of a grid. -/
def InCell (board : Board α) (grid : Grid α) (index : Nat) (id : String) : Prop :=
  ∃ rect, board.absoluteRect? id = some rect ∧ grid.Holds index rect

theorem InCell.not_overlaps {grid : Grid α} {index other : Nat} {first second : String}
    (left : board.InCell grid index first) (right : board.InCell grid other second)
    (apart : index ≠ other) : ¬ board.Overlaps first second := by
  obtain ⟨area, found, holds⟩ := left
  obtain ⟨rect, alsoFound, alsoHolds⟩ := right
  rw [overlaps_iff_intersects found alsoFound]
  exact holds.not_intersects alsoHolds apart

/-- The grid of cards in rows of some length. -/
def cardGrid (columns : Nat) (corner : Point α) : Grid α where
  columns
  corner
  across := (cellWidth : α)
  down := (cellHeight : α)
  across_nonneg := Nat.cast_nonneg _
  down_nonneg := Nat.cast_nonneg _

/-- A card or phantom fits into its cell. -/
theorem holds_cardGrid {node : Node α} (single : node.isGroup = false) {columns index : Nat}
    {corner spot : Point α} (cell : spot = (cardGrid columns corner).point index) :
    (cardGrid columns corner).Holds index ⟨spot, node.width, node.height⟩ := by
  obtain ⟨width, height⟩ := Node.size_of_single single
  refine ⟨cell, ?_, ?_⟩
  · rw [width]
    exact Nat.cast_le.mpr (Nat.le_add_right ..)
  · rw [height]
    exact Nat.cast_le.mpr (Nat.le_add_right ..)

theorem offset_memberPoint (index : Nat) (origin : Point α) :
    (memberPoint index).offset origin =
      (cardGrid groupColumns (Point.offset ⟨(cardMargin : α), (cardMargin : α)⟩ origin)).point
        index := by
  have scaled (steps size : Nat) :
      ((steps * size + cardMargin : Nat) : α) = (steps : α) * (size : α) + (cardMargin : α) := by
    rw [Nat.cast_add, Nat.cast_mul]
  rw [Grid.point, cardGrid, ← Point.offset_assoc]
  exact congrArg (fun point => Point.offset point origin)
    (congrArg₂ Point.mk (scaled ..) (scaled ..))

theorem freePoint_eq (top : α) (index : Nat) :
    freePoint top index = (cardGrid freeColumns ⟨(cardMargin : α), top⟩).point index := by
  refine congrArg₂ Point.mk ?_ ?_
  · exact (Nat.cast_add ..).trans (congrArg (· + (cardMargin : α)) (Nat.cast_mul ..))
  · exact (add_comm ..).trans (congrArg (· + top) (Nat.cast_mul ..))

/-- The grid of the cells in which groups are tiled. -/
def tileGrid (groups : List (Node α)) : Grid α where
  columns := tileColumns
  corner := .zero
  across := (tileSize groups).1 + (tileGap : α)
  down := (tileSize groups).2 + (tileGap : α)
  across_nonneg :=
    add_nonneg ((Nat.cast_nonneg 0).trans (le_foldl_larger_start id _ _)) (Nat.cast_nonneg _)
  down_nonneg :=
    add_nonneg ((Nat.cast_nonneg 0).trans (le_foldl_larger_start id _ _)) (Nat.cast_nonneg _)

omit [IsStrictOrderedRing α] in
/-- A group fits into a tile. -/
theorem size_le_tileSize {groups : List (Node α)} {group : Node α} (member : group ∈ groups) :
    group.width ≤ (tileSize groups).1 ∧ group.height ≤ (tileSize groups).2 := by
  have wide : group.width ∈ groups.map (·.width) := List.mem_map_of_mem member
  have high : group.height ∈ groups.map (·.height) := List.mem_map_of_mem member
  exact ⟨le_foldl_larger id wide _, le_foldl_larger id high _⟩

theorem tilePoint_eq (groups : List (Node α)) (index : Nat) :
    tilePoint (tileSize groups) index = (tileGrid groups).point index := by
  have same (coordinate : α) : coordinate = coordinate + ((0 : Nat) : α) := by
    rw [Nat.cast_zero, add_zero]
  exact congrArg₂ Point.mk (same _) (same _)

variable (sound : board.Sound)

include sound

/-- The members of a group are in the cells of one grid, in their order. -/
theorem Sound.inCell_member {group : String} {origin : Point α}
    (placed : (board.autosort catalogue).absolutePosition? group = some origin) {node : Node α}
    (member : node ∈ (board.autosort catalogue).nodes) (single : node.isGroup = false)
    (below : node.parent = some group) :
    (board.autosort catalogue).InCell
      (cardGrid groupColumns (Point.offset ⟨(cardMargin : α), (cardMargin : α)⟩ origin))
      ((board.members catalogue group).idxOf node.id) node.id := by
  have tidy := sound.autosort catalogue
  refine ⟨_, tidy.absoluteRect?_id member (tidy.absolutePosition?_of_parent member below placed),
    holds_cardGrid single ?_⟩
  rw [(cell_of_mem_autosort member single below).2]
  exact offset_memberPoint _ origin

/-- The free cards are in the cells of one grid, in some order. -/
theorem Sound.exists_inCell_free (catalogue : Catalogue) :
    ∃ (grid : Grid α) (order : List String), ∀ card ∈ (board.autosort catalogue).nodes,
      card.isCard → card.parent = none → card.id ∈ order ∧
        (board.autosort catalogue).InCell grid (order.idxOf card.id) card.id := by
  have tidy := sound.autosort catalogue
  let tiled := (board.arrangeGroups catalogue).tileGroups
  refine ⟨cardGrid freeColumns ⟨(cardMargin : α), tiled.freeTop⟩, tiled.freeOrder catalogue,
    fun card member isCard free => ?_⟩
  obtain ⟨listed, cell⟩ := cell_of_mem_arrangeFree member isCard free
  refine ⟨listed, _, tidy.absoluteRect?_id member (tidy.absolutePosition?_of_free member free),
    holds_cardGrid (Node.isGroup_eq_false_of_isCard isCard) ?_⟩
  rw [cell]
  exact freePoint_eq _ _

/-- The groups that are in no group are in the cells of one grid, in their order. -/
theorem Sound.exists_inCell_topGroup {group : Node α}
    (member : group ∈ (board.autosort catalogue).nodes) (isGroup : group.isGroup)
    (outside : group.parent = none) :
    ∃ index, (board.arrangeGroups catalogue).tileGroups.topGroups[index]? = some group ∧
      (board.autosort catalogue).InCell (tileGrid (board.arrangeGroups catalogue).topGroups) index
        group.id := by
  have tidy := sound.autosort catalogue
  have listed : group ∈ (board.arrangeGroups catalogue).tileGroups.topGroups :=
    mem_topGroups.mpr ⟨mem_of_mem_arrangeFree member (.inl isGroup), isGroup, outside⟩
  obtain ⟨index, found⟩ := List.mem_iff_getElem?.mp listed
  have gap : (0 : α) ≤ (tileGap : α) := Nat.cast_nonneg _
  obtain ⟨wide, high⟩ := size_le_tileSize listed
  rw [tileSize_tileGroups] at wide high
  refine ⟨index, found, _, tidy.absoluteRect?_id member
    (tidy.absolutePosition?_of_free member outside), ?_, wide.trans (le_add_of_nonneg_right gap),
    high.trans (le_add_of_nonneg_right gap)⟩
  rw [position_topGroups_tileGroups (sound.arrangeGroups catalogue).repaired.distinct found]
  exact tilePoint_eq _ index

omit sound

/-! ## Nodes that keep apart -/

omit [IsStrictOrderedRing α]

/-- Any two nodes of a kind share no area. -/
def Apart (board : Board α) (among : Node α → Prop) : Prop :=
  ∀ first ∈ board.nodes, ∀ second ∈ board.nodes, among first → among second → first ≠ second →
    ¬ board.Overlaps first.id second.id

/-- A node is free or in a group that is in no group. -/
def Shallow (board : Board α) (node : Node α) : Prop :=
  ∀ group, node.parent = some group → board.parent? group = none

/-- What lies side by side on a board keeps apart. -/
structure Spaced (board : Board α) : Prop where
  groups : board.Apart fun node => node.isGroup ∧ node.parent = none
  /-- Cards and phantoms do not reach out of their groups. -/
  inside : ∀ node ∈ board.nodes, node.isGroup = false → ∀ group, node.parent = some group →
    board.Covers group node.id
  members (group : String) :
    board.Apart fun node => node.isGroup = false ∧ node.parent = some group
  free : board.Apart fun node => node.isCard ∧ node.parent = none
  /-- The free cards are below the groups. -/
  under : ∀ card ∈ board.nodes, card.isCard → card.parent = none → ∀ group ∈ board.nodes,
    group.isGroup → group.parent = none → board.Under card.id group.id

omit [Ring α] [LinearOrder α] in
/-- The group of a shallow node is in no group. -/
theorem Sound.exists_topGroup_of_shallow (sound : board.Sound) {node : Node α}
    (member : node ∈ board.nodes) (shallow : board.Shallow node) {parent : String}
    (below : node.parent = some parent) :
    ∃ group ∈ board.nodes, (group.isGroup ∧ group.parent = none) ∧ group.id = parent := by
  obtain ⟨group, inside, isGroup, rfl⟩ :=
    sound.exists_group_of_parent? ((sound.parent?_id member).trans below)
  have outside : group.parent = none := (sound.parent?_id inside).symm.trans (shallow _ below)
  exact ⟨group, inside, ⟨isGroup, outside⟩, rfl⟩

section

variable (spaced : board.Spaced) {first second : Node α} (left : first ∈ board.nodes)
  (single : first.isGroup = false)

include spaced left single

/-- A node in a group shares no area with what shares none with the group. -/
theorem Spaced.not_overlaps_of_group {group other : String} (below : first.parent = some group)
    (apart : ¬ board.Overlaps group other) : ¬ board.Overlaps first.id other :=
  fun meets => apart ((spaced.inside first left single group below).overlaps meets)

theorem Spaced.not_overlaps_free (sound : board.Sound) (shallow : board.Shallow first)
    {parent : String} (below : first.parent = some parent) (right : second ∈ board.nodes)
    (isCard : second.isCard) (free : second.parent = none) :
    ¬ board.Overlaps first.id second.id := by
  obtain ⟨group, inside, ⟨isGroup, outside⟩, rfl⟩ :=
    sound.exists_topGroup_of_shallow left shallow below
  apply spaced.not_overlaps_of_group left single below
  exact (spaced.under second right isCard free group inside isGroup outside).not_overlaps

end

/-- Cards that are free or in groups that are in no group keep apart. -/
theorem Spaced.apart_shallow (spaced : board.Spaced) (sound : board.Sound) :
    board.Apart fun node => node.isCard ∧ board.Shallow node := by
  intro first left second right ⟨isCard, shallow⟩ ⟨alsoCard, alsoShallow⟩ apart
  have single := Node.isGroup_eq_false_of_isCard isCard
  have alsoSingle := Node.isGroup_eq_false_of_isCard alsoCard
  cases above : first.parent with
  | none =>
    cases alsoAbove : second.parent with
    | none => exact spaced.free first left second right ⟨isCard, above⟩ ⟨alsoCard, alsoAbove⟩ apart
    | some other =>
      exact fun meets => spaced.not_overlaps_free right alsoSingle sound alsoShallow alsoAbove left
        isCard above meets.symm
  | some parent =>
    cases alsoAbove : second.parent with
    | none =>
      exact spaced.not_overlaps_free left single sound shallow above right alsoCard alsoAbove
    | some other =>
      by_cases same : parent = other
      · exact spaced.members parent first left second right ⟨single, above⟩
          ⟨alsoSingle, same ▸ alsoAbove⟩ apart
      · obtain ⟨group, inside, isTop, rfl⟩ := sound.exists_topGroup_of_shallow left shallow above
        obtain ⟨next, alsoInside, alsoTop, rfl⟩ :=
          sound.exists_topGroup_of_shallow right alsoShallow alsoAbove
        have groups : ¬ board.Overlaps next.id group.id :=
          spaced.groups next alsoInside group inside alsoTop isTop fun itself =>
            same (congrArg Node.id itself).symm
        apply spaced.not_overlaps_of_group left single above
        exact fun meets => spaced.not_overlaps_of_group right alsoSingle alsoAbove groups meets.symm

variable [IsStrictOrderedRing α]

theorem Sound.spaced_autosort (sound : board.Sound) (catalogue : Catalogue) :
    (board.autosort catalogue).Spaced where
  groups := by
    intro first left second right ⟨isGroup, outside⟩ ⟨alsoGroup, alsoOutside⟩ apart
    obtain ⟨index, found, cell⟩ := sound.exists_inCell_topGroup left isGroup outside
    obtain ⟨other, alsoFound, alsoCell⟩ := sound.exists_inCell_topGroup right alsoGroup alsoOutside
    refine cell.not_overlaps alsoCell fun same => apart ?_
    rw [same, alsoFound, Option.some_inj] at found
    exact found.symm
  inside _ member single _ below := sound.covers_autosort member single below
  members group := by
    intro first left second right ⟨single, below⟩ ⟨alsoSingle, alsoBelow⟩ apart
    have tidy := sound.autosort catalogue
    obtain ⟨outer, inside, -, rfl⟩ :=
      tidy.exists_group_of_parent? ((tidy.parent?_id left).trans below)
    obtain ⟨origin, placed⟩ := tidy.exists_absolutePosition? inside
    have listed := (cell_of_mem_autosort left single below).1
    refine (sound.inCell_member placed left single below).not_overlaps
      (sound.inCell_member placed right alsoSingle alsoBelow) fun same => apart ?_
    exact Node.eq_of_id_eq tidy.repaired.distinct left right ((List.idxOf_inj listed).mp same)
  free := by
    intro first left second right ⟨isCard, free⟩ ⟨alsoCard, alsoFree⟩ apart
    obtain ⟨top, order, cells⟩ := sound.exists_inCell_free catalogue
    obtain ⟨listed, cell⟩ := cells first left isCard free
    obtain ⟨-, alsoCell⟩ := cells second right alsoCard alsoFree
    refine cell.not_overlaps alsoCell fun same => apart ?_
    exact Node.eq_of_id_eq (sound.autosort catalogue).repaired.distinct left right
      ((List.idxOf_inj listed).mp same)
  under _ member isCard free _ inside isGroup outside :=
    sound.under_autosort inside isGroup outside member isCard free

/-- **Tidying keeps everything apart.** On a board of exact coordinates that was built from nodes
and tidied, groups that are in no group share no area, what is in a group lies inside it and shares
no area with its other members, and the free cards share none and lie below all groups that are in
no group. So cards that are free or in such a group do not cover each other. Tidying changes only
the positions of nodes and the sizes of groups, none of which gets smaller. -/
theorem autosort_ofNodes_spaced (nodes : List (Node α)) (catalogue : Catalogue) :
    let tidy := (ofNodes nodes).autosort catalogue
    tidy.Spaced ∧ (tidy.Apart fun node => node.isCard ∧ tidy.Shallow node) ∧
      List.Forall₂ Node.Grows (ofNodes nodes).nodes tidy.nodes := by
  intro tidy
  have sound : (ofNodes nodes).Sound := sound_ofNodes nodes
  have spaced : tidy.Spaced := sound.spaced_autosort catalogue
  exact ⟨spaced, spaced.apart_shallow (sound.autosort catalogue),
    forall₂_grows_autosort (ofNodes nodes) catalogue⟩

theorem autosort_ofNodes_spaced_crowdedBoard :
    let tidy := (ofNodes crowdedBoard).autosort ⟨[]⟩
    tidy.Covers "outer" "island" ∧ tidy.Under "shock" "outer" ∧
      ¬ tidy.Overlaps "island" "shock" := by
  intro tidy
  have nodes : tidy.nodes = tidiedBoard := congrArg Board.nodes (autosort_crowdedBoard ⟨[]⟩)
  have listed {node : Node Int} (member : node ∈ tidiedBoard) : node ∈ tidy.nodes := nodes ▸ member
  have outer : ⟨"outer", ⟨0, 0⟩, none, .group "Outer" 200 236⟩ ∈ tidy.nodes :=
    listed (by simp [tidiedBoard])
  have island :
      ⟨"island", ⟨12, 12⟩, some "outer", .card "island" .main .normal none⟩ ∈ tidy.nodes :=
    listed (by simp [tidiedBoard])
  have shock : ⟨"shock", ⟨12, 316⟩, none, .card "shock" .main .normal none⟩ ∈ tidy.nodes :=
    listed (by simp [tidiedBoard])
  obtain ⟨spaced, apart, -⟩ := autosort_ofNodes_spaced crowdedBoard ⟨[]⟩
  have below : tidy.Under "shock" "outer" := spaced.under _ shock rfl rfl _ outer rfl rfl
  have inside : tidy.Covers "outer" "island" := spaced.inside _ island rfl _ rfl
  refine ⟨inside, below, apart _ island _ shock ⟨rfl, ?_⟩ ⟨rfl, ?_⟩ ?_⟩
  · rintro _ ⟨⟩
    exact ((sound_ofNodes crowdedBoard).autosort ⟨[]⟩).parent?_id outer
  · rintro _ ⟨⟩
  · exact fun same => absurd (congrArg Node.id same) (by simp)

end Board

end DeckBuilder
