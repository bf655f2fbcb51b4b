import DeckBuilder.Proofs.Board.Layers
import DeckBuilder.Proofs.Deck.RoundTrip

/-! # Opening a deck

However inconsistent a deck is, it opens as a board that has nothing to repair and shows parents
first. Of the nodes that the deck makes, the first one of each ID is shown as it is made, but for
one zone on each circle of zones that list each other, which is shown free.
-/

namespace DeckBuilder

section Pointers

variable {points : String → String → Prop} {order : List String}

/-- Where pointers lead inside, only pointers from inside can be on a cycle. -/
theorem opensCycle_inside_iff (inside : String → Prop)
    (closed : ∀ id parent, points id parent → inside parent) {id : String} :
    OpensCycle (fun id parent => inside id ∧ points id parent) order id ↔
      OpensCycle points order id := by
  have forget {id other : String}
      (path : Relation.TransGen (fun id parent => inside id ∧ points id parent) id other) :
      Relation.TransGen points id other :=
    Relation.TransGen.mono (fun _ _ step => step.2) _ _ path
  have restrict {id other : String} (start : inside id)
      (path : Relation.TransGen points id other) :
      Relation.TransGen (fun id parent => inside id ∧ points id parent) id other := by
    induction path with
    | single step => exact .single ⟨start, step⟩
    | tail path step ih =>
      obtain ⟨_, -, last⟩ := Relation.TransGen.tail'_iff.mp path
      exact ih.tail ⟨closed _ _ last, step⟩
  have within {id : String} (cycle : Relation.TransGen points id id) : inside id := by
    obtain ⟨_, -, last⟩ := Relation.TransGen.tail'_iff.mp cycle
    exact closed _ _ last
  constructor
  · intro opens
    have start := within (forget opens.1)
    exact ⟨forget opens.1, fun other earlier path => opens.2 other earlier (restrict start path)⟩
  · intro opens
    exact ⟨restrict (within opens.1) opens.1, fun other earlier path =>
      opens.2 other earlier (forget path)⟩

end Pointers

variable {α : Type}

namespace Deck

/-- A zone lies in another one when that is the first one to list it. -/
def NestedIn (deck : Deck α) (inner outer : String) : Prop :=
  deck.namesZone inner ∧ deck.zoneParent? inner = some outer

/-- The zone is the first one of a circle of zones that lie in each other. -/
def OpensCircle (deck : Deck α) (id : String) : Prop :=
  OpensCycle deck.NestedIn deck.nodeIds.eraseDups id

/-! ## Zones in zones -/

section

variable {deck : Deck α}

/-- Among zones, the pointers of the first nodes are those of the lists. -/
theorem nests_iff_nestedIn {inner outer : String} :
    deck.namesZone inner ∧ Node.Nests (Node.distinct deck.rawNodes) inner outer ↔
      deck.NestedIn inner outer := by
  unfold NestedIn
  refine and_congr_right fun known => ⟨?_, fun lists => ?_⟩
  · intro nests
    obtain ⟨node, first, rfl, above, -⟩ := nests
    rw [← above, parent_of_isGroup (mem_rawNodes_of_mem_distinct first)
      ((isGroup_iff_namesZone first).mpr known)]
  · obtain ⟨group, first, isGroup, rfl⟩ := exists_group_of_namesZone known
    refine ⟨group, first, rfl, ?_, not_loose_of_mem_distinct first⟩
    rw [parent_of_isGroup (mem_rawNodes_of_mem_distinct first) isGroup, lists]

theorem opensCycle_rawNodes_iff {id : String} :
    OpensCycle (Node.Nests (Node.distinct deck.rawNodes))
      ((Node.distinct deck.rawNodes).map (·.id)) id ↔ deck.OpensCircle id := by
  have pointers : deck.NestedIn = fun inner outer =>
      deck.namesZone inner ∧ Node.Nests (Node.distinct deck.rawNodes) inner outer :=
    funext₂ fun _ _ => propext nests_iff_nestedIn.symm
  rw [OpensCircle, pointers, ← map_id_rawNodes, ← map_distinctBy]
  exact (opensCycle_inside_iff (deck.namesZone ·) fun _ _ => namesZone_of_nests).symm

end

/-! ## The nodes on the board -/

/-- A node on the board is the first one made with its ID, but for its parent when it is the first
zone of a circle. -/
theorem exists_made_of_mem_toNodes {deck : Deck α} {node : Node α} (shown : node ∈ deck.toNodes) :
    ∃ made ∈ Node.distinct deck.rawNodes,
      (deck.OpensCircle made.id ∧ node = made.detach) ∨
        (¬ deck.OpensCircle made.id ∧ node = made) := by
  obtain ⟨cuts, built, cut⟩ := Board.exists_ofNodes_eq deck.rawNodes
  rw [deck.toNodes_perm.mem_iff, built, Board.indexed] at shown
  obtain ⟨made, kept, rfl⟩ := List.mem_map.mp shown
  have first := (List.mem_filter.mp kept).1
  refine ⟨made, first, ?_⟩
  rw [← opensCycle_rawNodes_iff, ← cut, Node.mend]
  by_cases severed : made.id ∈ cuts
  · exact .inl ⟨severed, if_pos (.inr severed)⟩
  · exact .inr ⟨severed, if_neg (not_or.mpr ⟨not_loose_of_mem_distinct first, severed⟩)⟩

/-- Only the phantoms of a card that is not on the board are missing there. -/
theorem exists_mem_toNodes_of_mem_nodeIds {deck : Deck α} {id : String}
    (listed : id ∈ deck.nodeIds) :
    (∃ node ∈ deck.toNodes, node.id = id) ∨
      ∃ phantom owner index, deck.rawNodes.find? (·.id == id) = some phantom ∧
        phantom.data = .phantom owner index ∧
          ∀ card ∈ deck.toNodes, card.isCard → card.id ≠ owner := by
  obtain ⟨cuts, built, -⟩ := Board.exists_ofNodes_eq deck.rawNodes
  have shown (node : Node α) : node ∈ deck.toNodes ↔ ∃ made ∈ Node.distinct deck.rawNodes,
      ¬ Node.Orphan (Node.distinct deck.rawNodes) made ∧
        Node.mend (Node.distinct deck.rawNodes) cuts made = node := by
    rw [deck.toNodes_perm.mem_iff, built, Board.indexed]
    simp [and_assoc]
  rw [← map_id_rawNodes, ← List.mem_eraseDups, ← map_distinctBy] at listed
  obtain ⟨made, first, rfl⟩ := List.mem_map.mp listed
  by_cases orphan : Node.Orphan (Node.distinct deck.rawNodes) made
  · obtain ⟨owner, index, data, none⟩ := orphan
    refine .inr ⟨made, owner, index, find?_rawNodes_of_mem_distinct first, data, ?_⟩
    intro card onBoard isCard
    obtain ⟨given, alsoFirst, -, rfl⟩ := (shown card).mp onBoard
    rw [Node.isCard_mend] at isCard
    rw [Node.id_mend]
    exact none given alsoFirst isCard
  · exact .inl ⟨_, (shown _).mpr ⟨made, first, orphan, rfl⟩, Node.id_mend ..⟩

/-- The nodes are the board of the deck, repaired and parents first. -/
structure Opened (deck : Deck α) (nodes : List (Node α)) : Prop where
  unchanged : (Board.ofNodes nodes).nodes = nodes
  parentsFirst : ∀ before node after, nodes = before ++ node :: after →
    ∀ ancestor, Relation.TransGen (Node.Points nodes) node.id ancestor →
      ∃ group ∈ before, group.isGroup ∧ group.id = ancestor
  layered : Node.Layered (fun node => (Board.ofNodes nodes).depth node.id) nodes
  /-- Nodes of one rank keep the order in which they are made. -/
  stable : ∀ rank, ((nodes.filter ((Board.ofNodes nodes).nestingCode · == rank)).map (·.id)).Sublist
    deck.nodeIds.eraseDups
  /-- Only phantoms without a card are missing. -/
  complete : ∀ id ∈ deck.nodeIds, (∃ node ∈ nodes, node.id = id) ∨
    ∃ phantom owner index, deck.rawNodes.find? (·.id == id) = some phantom ∧
      phantom.data = .phantom owner index ∧ ∀ card ∈ nodes, card.isCard → card.id ≠ owner
  /-- A card is in the first zone that lists it. -/
  cards : ∀ card ∈ nodes, card.isCard → ∀ zone,
    deck.zones.find? (·.cardChildren.contains card.id) = some zone → card.parent = some zone.id
  /-- A group is in the first other zone that lists it, but for one group of each circle. -/
  groups : ∀ group ∈ nodes, group.isGroup → ∀ zone,
    deck.zones.find? (fun zone => zone.id != group.id && zone.zoneChildren.contains group.id) =
      some zone →
    (¬ deck.OpensCircle group.id ∧ group.parent = some zone.id) ∨
      (deck.OpensCircle group.id ∧ group.parent = none)

section

variable (deck : Deck α)

theorem parent_of_card_toNodes {card : Node α} (shown : card ∈ deck.toNodes)
    (isCard : card.isCard) {zone : String} (lists : deck.cardParent? card.id = some zone) :
    card.parent = some zone := by
  obtain ⟨made, first, ⟨opens, rfl⟩ | ⟨-, rfl⟩⟩ := exists_made_of_mem_toNodes shown
  · -- What is on a circle is a zone.
    obtain ⟨_, ⟨known, -⟩, -⟩ := Relation.TransGen.head'_iff.mp opens.1
    have isGroup : made.detach.isGroup := (isGroup_iff_namesZone first).mpr known
    rw [Node.isGroup_eq_false_of_isCard isCard] at isGroup
    cases isGroup
  · exact parent_of_isCard (mem_rawNodes_of_mem_distinct first) isCard lists

theorem parent_of_group_toNodes {group : Node α} (shown : group ∈ deck.toNodes)
    (isGroup : group.isGroup) :
    (¬ deck.OpensCircle group.id ∧ group.parent = deck.zoneParent? group.id) ∨
      (deck.OpensCircle group.id ∧ group.parent = none) := by
  obtain ⟨made, first, ⟨opens, rfl⟩ | ⟨uncut, rfl⟩⟩ := exists_made_of_mem_toNodes shown
  · exact .inr ⟨opens, rfl⟩
  · exact .inl ⟨uncut, parent_of_isGroup (mem_rawNodes_of_mem_distinct first) isGroup⟩

theorem sublist_nodeIds_toNodes (rank : List Nat) :
    ((deck.toNodes.filter ((Board.ofNodes deck.rawNodes).nestingCode · == rank)).map (·.id)).Sublist
      deck.nodeIds.eraseDups := by
  rw [toNodes, Board.nodes_sortByNesting, OrderCode.filter_code_mergeSort]
  obtain ⟨cuts, built, -⟩ := Board.exists_ofNodes_eq deck.rawNodes
  have ids : ((Board.ofNodes deck.rawNodes).nodes.map (·.id)).Sublist
      ((Node.distinct deck.rawNodes).map (·.id)) := by
    rw [built, Board.indexed, List.map_map]
    exact (List.filter_sublist.map _).trans (by simp [Function.comp_def])
  rw [← map_id_rawNodes, ← map_distinctBy]
  exact (List.filter_sublist.map _).trans ids

/-- **However inconsistent a deck is, it opens as a repaired board, parents first.** -/
theorem opened_toNodes : deck.Opened deck.toNodes := by
  have made := Board.keyed_ofNodes deck.rawNodes
  have shown := Board.keyed_ofNodes deck.toNodes
  have perm : (Board.ofNodes deck.toNodes).nodes.Perm (Board.ofNodes deck.rawNodes).nodes := by
    rw [ofNodes_toNodes]
    exact deck.toNodes_perm
  refine ⟨deck.ofNodes_toNodes, ?_, ?_, ?_, fun id => exists_mem_toNodes_of_mem_nodeIds, ?_, ?_⟩
  · intro before node after split ancestor above
    rw [Node.points_eq_of_perm deck.toNodes_perm] at above
    exact (Board.sound_ofNodes deck.rawNodes).exists_earlier_of_transGen split above
  · rw [Board.depth_eq_of_perm shown made perm]
    exact Board.layered_sortByNesting _
  · intro rank
    rw [funext (Board.nestingCode_eq_of_perm shown made perm)]
    exact deck.sublist_nodeIds_toNodes rank
  · intro card onBoard isCard zone found
    exact deck.parent_of_card_toNodes onBoard isCard (by rw [cardParent?, found, Option.map_some])
  · intro group onBoard isGroup zone found
    have lists : deck.zoneParent? group.id = some zone.id := by
      rw [zoneParent?, found, Option.map_some]
    rw [← lists]
    exact deck.parent_of_group_toNodes onBoard isGroup

end

end Deck

end DeckBuilder
