import DeckBuilder.Proofs.Board.Cycles

/-! # Repair

A board is built from any list of nodes, and building it repairs exactly what is wrong: of each ID
the first node is kept, phantoms without a card are dropped, and the pointers that are cleared are
those to the node itself, those to no group, and one in every cycle.
-/

namespace DeckBuilder

variable {α : Type}

namespace Node

/-- Nothing is left to repair: IDs are distinct, parents are other nodes that are groups, following
them ends, and phantoms have a card. -/
structure Repaired (nodes : List (Node α)) : Prop where
  distinct : (nodes.map (·.id)).Nodup
  parents : ∀ node ∈ nodes, ∀ parent, node.parent = some parent →
    parent ≠ node.id ∧ ∃ group ∈ nodes, group.isGroup ∧ group.id = parent
  ends : WellFounded fun parent id => Points nodes id parent
  owners : ∀ node ∈ nodes, ∀ owner index, node.data = .phantom owner index →
    ∃ card ∈ nodes, card.isCard ∧ card.id = owner

/-- The parent of a node is the node itself or no group. -/
def Loose (nodes : List (Node α)) (node : Node α) : Prop :=
  ∃ parent, node.parent = some parent ∧
    (parent = node.id ∨ ∀ group ∈ nodes, group.isGroup → group.id ≠ parent)

/-- The node is a phantom without a card. -/
def Orphan (nodes : List (Node α)) (node : Node α) : Prop :=
  ∃ owner index, node.data = .phantom owner index ∧ ∀ card ∈ nodes, card.isCard → card.id ≠ owner

/-- The node with one ID points at the other, which is another group. -/
def Nests (nodes : List (Node α)) (id parent : String) : Prop :=
  ∃ node ∈ nodes, node.id = id ∧ node.parent = some parent ∧ ¬ Loose nodes node

/-- What repair makes of a node: its pointer is cleared when it is loose or the node is the first
of a cycle, and nothing else is changed. -/
def Mended (nodes : List (Node α)) (before after : Node α) : Prop :=
  (after = before.detach ∧
    (Loose nodes before ∨ OpensCycle (Nests nodes) (nodes.map (·.id)) before.id)) ∨
  (after = before ∧
    ¬ Loose nodes before ∧ ¬ OpensCycle (Nests nodes) (nodes.map (·.id)) before.id)

/-- The order of nodes plays no part in what there is to repair. -/
theorem Repaired.perm {first second : List (Node α)} (perm : first.Perm second)
    (repaired : Repaired first) : Repaired second := by
  refine ⟨(perm.map _).nodup_iff.mp repaired.distinct, ?_, ?_, ?_⟩
  · intro node member parent above
    obtain ⟨apart, group, inside, isGroup, named⟩ :=
      repaired.parents node (perm.symm.subset member) parent above
    exact ⟨apart, group, perm.subset inside, isGroup, named⟩
  · rw [← points_eq_of_perm perm]
    exact repaired.ends
  · intro node member owner index data
    obtain ⟨card, inside, isCard, named⟩ :=
      repaired.owners node (perm.symm.subset member) owner index data
    exact ⟨card, perm.subset inside, isCard, named⟩

theorem Nests.points {nodes : List (Node α)} {id parent : String}
    (nests : Nests nodes id parent) : Points nodes id parent := by
  obtain ⟨node, member, named, above, -⟩ := nests
  exact ⟨node, member, named, above⟩

theorem nests_rightUnique {nodes : List (Node α)} (distinct : (nodes.map (·.id)).Nodup) :
    Relator.RightUnique (Nests nodes) := fun _ _ _ first second =>
  points_rightUnique distinct first.points second.points

theorem namesGroup_eq_true_iff {nodes : List (Node α)} {id : String} :
    namesGroup nodes id = true ↔ ∃ group ∈ nodes, group.isGroup ∧ group.id = id := by
  simp [namesGroup]

theorem not_loose_iff {nodes : List (Node α)} {node : Node α} :
    ¬ Loose nodes node ↔
      node.parent.all (fun parent => parent != node.id && namesGroup nodes parent) = true := by
  cases above : node.parent with
  | none => simp [Loose, above]
  | some parent => simp [Loose, above, namesGroup, not_or]

theorem hasCard_eq_true_iff {nodes : List (Node α)} {node : Node α} :
    hasCard nodes node = true ↔ ¬ Orphan nodes node := by
  cases data : node.data with
  | phantom owner index =>
    simp [hasCard, Orphan, data, namesCard]
  | card | group => simp [hasCard, Orphan, data]

instance (nodes : List (Node α)) (node : Node α) : Decidable (Loose nodes node) :=
  decidable_of_iff _ (not_congr not_loose_iff.symm |>.trans not_not)

instance (nodes : List (Node α)) (node : Node α) : Decidable (Orphan nodes node) :=
  decidable_of_iff _ (not_congr hasCard_eq_true_iff |>.trans not_not)

theorem nodup_distinct (nodes : List (Node α)) : ((distinct nodes).map (·.id)).Nodup :=
  nodup_distinctBy nodes

/-! ## Loose pointers -/

@[simp] theorem id_detach (node : Node α) : node.detach.id = node.id := rfl

@[simp] theorem data_detach (node : Node α) : node.detach.data = node.data := rfl

@[simp] theorem parent_detach (node : Node α) : node.detach.parent = none := rfl

theorem detachLoose_eq (nodes : List (Node α)) :
    detachLoose nodes = nodes.map fun node => if Loose nodes node then node.detach else node := by
  apply List.map_congr_left
  intro node _
  by_cases loose : Loose nodes node
  · rw [if_pos loose, if_neg fun sound => not_loose_iff.mpr sound loose]
  · rw [if_neg loose, if_pos (not_loose_iff.mp loose)]

theorem ids_detachLoose (nodes : List (Node α)) :
    (detachLoose nodes).map (·.id) = nodes.map (·.id) := by
  rw [detachLoose_eq, List.map_map]
  apply List.map_congr_left
  intro node _
  rw [Function.comp_apply]
  split <;> rfl

/-- Detaching loose nodes leaves the pointers to other groups. -/
theorem points_detachLoose (nodes : List (Node α)) :
    Points (detachLoose nodes) = Nests nodes := by
  funext id parent
  refine propext ⟨?_, ?_⟩
  · rw [detachLoose_eq]
    intro points
    obtain ⟨_, member, named, points⟩ := points
    obtain ⟨node, present, rfl⟩ := List.mem_map.mp member
    by_cases loose : Loose nodes node
    · rw [if_pos loose] at points
      cases points
    · rw [if_neg loose] at named points
      exact ⟨node, present, named, points, loose⟩
  · intro nests
    obtain ⟨node, present, named, points, sound⟩ := nests
    rw [detachLoose_eq]
    exact ⟨node, List.mem_map.mpr ⟨node, present, if_neg sound⟩, named, points⟩

/-! ## Mending -/

/-- The node, detached when its pointer is loose or it is one of those to cut off. -/
def mend (nodes : List (Node α)) (cuts : List String) (node : Node α) : Node α :=
  if Loose nodes node ∨ node.id ∈ cuts then node.detach else node

section

variable (nodes : List (Node α)) (cuts : List String) (node : Node α)

@[simp] theorem id_mend : (mend nodes cuts node).id = node.id := by
  unfold mend
  split <;> rfl

@[simp] theorem data_mend : (mend nodes cuts node).data = node.data := by
  unfold mend
  split <;> rfl

@[simp] theorem isGroup_mend : (mend nodes cuts node).isGroup = node.isGroup := by
  simp only [isGroup, data_mend]

@[simp] theorem isCard_mend : (mend nodes cuts node).isCard = node.isCard := by
  simp only [isCard, data_mend]

end

theorem parent_mend_eq_some_iff {nodes : List (Node α)} {cuts : List String} {node : Node α}
    {parent : String} : (mend nodes cuts node).parent = some parent ↔
      node.parent = some parent ∧ ¬ Loose nodes node ∧ node.id ∉ cuts := by
  unfold mend
  split
  · rename_i cleared
    simp only [parent_detach, reduceCtorEq, false_iff, not_and, not_not]
    intro _ sound
    exact cleared.resolve_left sound
  · rename_i kept
    rw [not_or] at kept
    simp [kept]

theorem detachAll_detachLoose (nodes : List (Node α)) (cuts : List String) :
    detachAll cuts (detachLoose nodes) = nodes.map (mend nodes cuts) := by
  unfold detachAll
  rw [detachLoose_eq, List.map_map]
  apply List.map_congr_left
  intro node _
  rw [Function.comp_apply, mend]
  by_cases loose : Loose nodes node
  · simp only [loose, ↓reduceIte, true_or]
    split <;> rfl
  · simp only [loose, ↓reduceIte, false_or]

theorem dropOrphans_map_mend (nodes : List (Node α)) (cuts : List String) :
    dropOrphans (nodes.map (mend nodes cuts)) =
      (nodes.filter fun node => ¬ Orphan nodes node).map (mend nodes cuts) := by
  unfold dropOrphans
  rw [List.filter_map]
  congr 1
  apply List.filter_congr
  intro node _
  have kept : hasCard (nodes.map (mend nodes cuts)) (mend nodes cuts node) = true ↔
      ¬ Orphan nodes node := by
    rw [hasCard_eq_true_iff, not_iff_not]
    simp [Orphan]
  rw [Function.comp_apply, Bool.eq_iff_iff, kept, decide_eq_true_iff]

end Node

namespace Board

/-- A built board keeps the first node of each ID but for orphans, mended; the nodes that it cuts
off are the first ones of the cycles. -/
theorem exists_ofNodes_eq (nodes : List (Node α)) :
    ∃ cuts, ofNodes nodes = indexed (((Node.distinct nodes).filter fun node =>
        ¬ Node.Orphan (Node.distinct nodes) node).map (Node.mend (Node.distinct nodes) cuts)) ∧
      ∀ id, id ∈ cuts ↔
        OpensCycle (Node.Nests (Node.distinct nodes)) ((Node.distinct nodes).map (·.id)) id := by
  have distinct : ((Node.detachLoose (Node.distinct nodes)).map (·.id)).Nodup := by
    rw [Node.ids_detachLoose]
    exact Node.nodup_distinct nodes
  obtain ⟨cuts, broken, cut⟩ := exists_breakCycles_eq distinct
  rw [Node.points_detachLoose, Node.ids_detachLoose] at cut
  refine ⟨cuts, ?_, cut⟩
  rw [ofNodes, broken, Node.detachAll_detachLoose]
  exact congrArg indexed (Node.dropOrphans_map_mend _ _)

theorem keyed_ofNodes (nodes : List (Node α)) : (ofNodes nodes).Keyed := by
  obtain ⟨cuts, built, -⟩ := exists_ofNodes_eq nodes
  rw [built]
  refine keyed_indexed ?_
  rw [List.map_map]
  have ids : ((·.id) ∘ Node.mend (Node.distinct nodes) cuts) = (·.id) :=
    funext fun node => Node.id_mend _ _ node
  rw [ids]
  exact (Node.nodup_distinct nodes).sublist (List.filter_sublist.map _)

/-- Repair keeps the ID and the data of a node. -/
theorem exists_given_of_mem_ofNodes {nodes : List (Node α)} {node : Node α}
    (member : node ∈ (ofNodes nodes).nodes) :
    ∃ given ∈ nodes, given.id = node.id ∧ given.data = node.data := by
  obtain ⟨cuts, built, -⟩ := exists_ofNodes_eq nodes
  rw [built, indexed] at member
  obtain ⟨given, kept, rfl⟩ := List.mem_map.mp member
  have first := (distinctBy_sublist nodes).subset (List.mem_filter.mp kept).1
  exact ⟨given, first, (Node.id_mend ..).symm, (Node.data_mend ..).symm⟩

/-- The nodes of a built board are first nodes that are no orphans, mended. -/
theorem forall₂_mended_ofNodes (nodes : List (Node α)) :
    List.Forall₂ (Node.Mended (Node.distinct nodes))
      ((Node.distinct nodes).filter fun node => ¬ Node.Orphan (Node.distinct nodes) node)
      (ofNodes nodes).nodes := by
  obtain ⟨cuts, built, cut⟩ := exists_ofNodes_eq nodes
  rw [built, indexed, List.forall₂_map_right_iff, List.forall₂_same]
  intro node _
  unfold Node.mend Node.Mended
  rw [← cut]
  by_cases cleared : Node.Loose (Node.distinct nodes) node ∨ node.id ∈ cuts
  · exact .inl ⟨if_pos cleared, cleared⟩
  · exact .inr ⟨if_neg cleared, not_or.mp cleared⟩

section

variable {nodes : List (Node α)} {cuts : List String}

theorem points_mend {id parent : String} :
    Node.Points ((nodes.filter fun node => ¬ Node.Orphan nodes node).map (Node.mend nodes cuts))
      id parent → Without (Node.Nests nodes) cuts id parent := by
  intro points
  obtain ⟨_, member, rfl, points⟩ := points
  obtain ⟨node, present, rfl⟩ := List.mem_map.mp member
  obtain ⟨above, sound, uncut⟩ := Node.parent_mend_eq_some_iff.mp points
  rw [Node.id_mend]
  exact ⟨⟨node, (List.mem_filter.mp present).1, rfl, above, sound⟩, uncut⟩

end

/-- Whatever the nodes, the board that is built of them has nothing to repair. -/
theorem repaired_ofNodes (nodes : List (Node α)) : Node.Repaired (ofNodes nodes).nodes := by
  have distinct := (keyed_ofNodes nodes).distinct
  obtain ⟨cuts, built, cut⟩ := exists_ofNodes_eq nodes
  have firstDistinct := Node.nodup_distinct nodes
  generalize Node.distinct nodes = firsts at built cut firstDistinct
  rw [built, indexed] at distinct ⊢
  -- What is no orphan stays on the board, mended.
  have stays {node : Node α} (member : node ∈ firsts) (sound : ¬ Node.Orphan firsts node) :
      Node.mend firsts cuts node ∈ (firsts.filter fun node => ¬ Node.Orphan firsts node).map
        (Node.mend firsts cuts) :=
    List.mem_map_of_mem (List.mem_filter.mpr ⟨member, decide_eq_true sound⟩)
  refine ⟨distinct, ?_, ?_, ?_⟩
  · intro _ member parent points
    obtain ⟨node, present, rfl⟩ := List.mem_map.mp member
    obtain ⟨above, sound, -⟩ := Node.parent_mend_eq_some_iff.mp points
    rw [Node.not_loose_iff, above, Option.all_some, Bool.and_eq_true, bne_iff_ne,
      Node.namesGroup_eq_true_iff] at sound
    obtain ⟨apart, group, inside, isGroup, named⟩ := sound
    refine ⟨by rwa [Node.id_mend], Node.mend firsts cuts group, stays inside ?_, ?_, ?_⟩
    · intro orphan
      obtain ⟨owner, index, data, -⟩ := orphan
      simp [Node.isGroup, data] at isGroup
    · rwa [Node.isGroup_mend]
    · rwa [Node.id_mend]
  · rw [Node.wellFounded_points_iff distinct]
    intro id cycle
    exact acyclic_of_cuts (Node.nests_rightUnique firstDistinct)
      (fun source target nests => nests.points.mem_ids) (fun other opens => (cut other).mpr opens)
      id (Relation.TransGen.mono (fun _ _ => points_mend) _ _ cycle)
  · intro _ member owner index data
    obtain ⟨node, present, rfl⟩ := List.mem_map.mp member
    rw [Node.data_mend] at data
    have owned := of_decide_eq_true (List.mem_filter.mp present).2
    simp only [Node.Orphan, not_exists, not_and, not_forall, not_not] at owned
    obtain ⟨card, inside, isCard, named⟩ := owned owner index data
    refine ⟨Node.mend firsts cuts card, stays inside ?_, by rwa [Node.isCard_mend], by
      rwa [Node.id_mend]⟩
    intro orphan
    obtain ⟨_, _, otherwise, -⟩ := orphan
    simp [Node.isCard, otherwise] at isCard

/-- Where there is nothing to repair, building a board changes nothing. -/
theorem ofNodes_nodes_of_repaired {nodes : List (Node α)} (repaired : Node.Repaired nodes) :
    (ofNodes nodes).nodes = nodes := by
  obtain ⟨cuts, built, cut⟩ := exists_ofNodes_eq nodes
  rw [Node.distinct, distinctBy_eq_self repaired.distinct] at built cut
  have owned : (nodes.filter fun node => ¬ Node.Orphan nodes node) = nodes := by
    refine List.filter_eq_self.mpr fun node member => decide_eq_true ?_
    intro orphan
    obtain ⟨owner, index, data, none⟩ := orphan
    obtain ⟨card, inside, isCard, named⟩ := repaired.owners node member owner index data
    exact none card inside isCard named
  rw [built, indexed, owned]
  have acyclic := (Node.wellFounded_points_iff repaired.distinct).mp repaired.ends
  refine (List.map_congr_left fun node member => if_neg ?_).trans (List.map_id nodes)
  rintro (⟨parent, above, astray⟩ | severed)
  · obtain ⟨apart, group, inside, isGroup, named⟩ := repaired.parents node member parent above
    exact astray.elim apart fun none => none group inside isGroup named
  · exact acyclic node.id (Relation.TransGen.mono (fun _ _ => Node.Nests.points) _ _
      ((cut node.id).mp severed).1)

theorem ofNodes_eq_indexed {nodes : List (Node α)} (repaired : Node.Repaired nodes) :
    ofNodes nodes = indexed nodes := by
  rw [← (keyed_ofNodes nodes).indexed_nodes, ofNodes_nodes_of_repaired repaired]

/-- In every cycle of nested groups one node loses its pointer. -/
theorem existsUnique_detached (nodes : List (Node α)) {id : String}
    (cycle : Relation.TransGen (Node.Nests (Node.distinct nodes)) id id) :
    ∃! node, node ∈ (ofNodes nodes).nodes ∧
      Relation.TransGen (Node.Nests (Node.distinct nodes)) id node.id ∧ node.parent = none := by
  have distinct := (keyed_ofNodes nodes).distinct
  obtain ⟨cuts, built, cut⟩ := exists_ofNodes_eq nodes
  have firstDistinct := Node.nodup_distinct nodes
  generalize Node.distinct nodes = firsts at built cut firstDistinct cycle ⊢
  rw [built, indexed] at distinct ⊢
  have functional := Node.nests_rightUnique firstDistinct
  have members {source target : String} (nests : Node.Nests firsts source target) :
      ∃ group ∈ firsts, group.isGroup ∧ group.id = target := by
    obtain ⟨node, -, -, above, sound⟩ := nests
    rw [Node.not_loose_iff, above, Option.all_some, Bool.and_eq_true] at sound
    exact Node.namesGroup_eq_true_iff.mp sound.2
  have start : id ∈ firsts.map (·.id) := by
    obtain ⟨_, step, -⟩ := Relation.TransGen.head'_iff.mp cycle
    exact step.points.mem_ids
  obtain ⟨first, -, path, opens⟩ := exists_opensCycle functional cycle start
  obtain ⟨_, -, last⟩ := Relation.TransGen.tail'_iff.mp path
  obtain ⟨group, inside, isGroup, rfl⟩ := members last
  have severed : (Node.mend firsts cuts group).parent = none := by
    rw [Node.mend, if_pos (.inr ((cut group.id).mpr opens)), Node.parent_detach]
  refine ⟨Node.mend firsts cuts group, ⟨List.mem_map_of_mem (List.mem_filter.mpr
    ⟨inside, decide_eq_true ?_⟩), by rwa [Node.id_mend], severed⟩, ?_⟩
  · intro orphan
    obtain ⟨owner, index, data, -⟩ := orphan
    simp [Node.isGroup, data] at isGroup
  · rintro _ ⟨member, reached, detached⟩
    obtain ⟨node, present, rfl⟩ := List.mem_map.mp member
    have isFirst := (List.mem_filter.mp present).1
    rw [Node.id_mend] at reached
    -- The node is on the cycle, so it had a pointer, which only a cut can have cleared.
    obtain ⟨parent, ⟨source, sourceInside, named, above, sound⟩, -⟩ :=
      Relation.TransGen.head'_iff.mp (transGen_back functional cycle reached)
    rw [Node.eq_of_id_eq firstDistinct sourceInside isFirst named] at above sound
    have removed : node.id ∈ cuts := by
      by_contra uncut
      rw [Node.parent_mend_eq_some_iff.mpr ⟨above, sound, uncut⟩] at detached
      cases detached
    have same := OpensCycle.eq functional ((cut node.id).mp removed) opens
      (List.mem_map_of_mem isFirst) (List.mem_map_of_mem inside)
      ((transGen_back functional cycle reached).trans path)
    rw [Node.eq_of_id_eq firstDistinct isFirst inside same]

/-- **Repair is right, and no more than right.** With the first nodes of the IDs, in their order,
the board that is built has nothing to repair and finds exactly its nodes; only orphans are dropped,
only loose pointers and those of the first nodes of cycles are cleared, one in each cycle; and a
list without faults is its own board. -/
theorem ofNodes_repairs (nodes : List (Node α)) :
    ∃ firsts : List (Node α),
      -- The first node of each ID, in the order of the IDs.
      firsts.map (·.id) = (nodes.map (·.id)).eraseDups ∧
      (∀ node ∈ firsts, nodes.find? (·.id == node.id) = some node) ∧
      -- The board is right.
      Node.Repaired (ofNodes nodes).nodes ∧
      (∀ id node, (ofNodes nodes).get? id = some node ↔
        node ∈ (ofNodes nodes).nodes ∧ node.id = id) ∧
      -- Nothing else is changed.
      List.Forall₂ (Node.Mended firsts) (firsts.filter fun node => ¬ Node.Orphan firsts node)
        (ofNodes nodes).nodes ∧
      (∀ id, Relation.TransGen (Node.Nests firsts) id id →
        ∃! node, node ∈ (ofNodes nodes).nodes ∧
          Relation.TransGen (Node.Nests firsts) id node.id ∧ node.parent = none) ∧
      (∀ node ∈ firsts, ¬ Node.Orphan firsts node → ¬ Node.Loose firsts node →
        ¬ Relation.TransGen (Node.Nests firsts) node.id node.id →
          node ∈ (ofNodes nodes).nodes) ∧
      -- Repair is a projection onto the lists without faults.
      ofNodes (ofNodes nodes).nodes = ofNodes nodes ∧
      (Node.Repaired nodes ↔ (ofNodes nodes).nodes = nodes) := by
  refine ⟨Node.distinct nodes, map_distinctBy nodes, fun node => find?_of_mem_distinctBy,
    repaired_ofNodes nodes, fun id node => (keyed_ofNodes nodes).get?_eq_some_iff,
    forall₂_mended_ofNodes nodes, fun id => existsUnique_detached nodes, ?_, ?_, ?_⟩
  · intro node member owned sound unclosed
    obtain ⟨cuts, built, cut⟩ := exists_ofNodes_eq nodes
    have kept : Node.mend (Node.distinct nodes) cuts node = node :=
      if_neg (not_or.mpr ⟨sound, fun severed => unclosed ((cut node.id).mp severed).1⟩)
    rw [built, indexed, ← kept]
    exact List.mem_map_of_mem (List.mem_filter.mpr ⟨member, decide_eq_true owned⟩)
  · rw [ofNodes_eq_indexed (repaired_ofNodes nodes), (keyed_ofNodes nodes).indexed_nodes]
  · constructor
    · exact ofNodes_nodes_of_repaired
    · intro unchanged
      rw [← unchanged]
      exact repaired_ofNodes nodes

/-- Two groups inside each other, with a third inside the second: only the first is detached. -/
example :
    let group (id parent : String) : Node Nat := ⟨id, ⟨0, 0⟩, some parent, .group id 1 1⟩
    (ofNodes [group "c" "b", group "a" "b", group "b" "a"]).nodes.map (·.parent) =
      [some "b", none, some "a"] := by
  decide +kernel

end Board

end DeckBuilder
