import DeckBuilder.Deck.Nodes
import DeckBuilder.Proofs.Board.Repair

/-! # The nodes that a deck makes

A deck makes a node for each zone, then for each card those of its phantoms and its own. Zones come
first, so the first node with the ID of a zone is a group, and the parent of any node is one of
them.
-/

namespace DeckBuilder

variable {α : Type}

namespace Deck

/-- The IDs of the nodes that a deck makes: those of its zones, and for each card those of its
phantoms and its own. -/
def nodeIds (deck : Deck α) : List String :=
  deck.zones.map (·.id) ++ deck.cards.flatMap fun card =>
    (List.range card.phantoms.length).map (phantomNodeId card.slot.nodeId) ++ [card.slot.nodeId]

variable {deck : Deck α}

theorem map_id_nodesOfCard (card : DeckCard α) :
    (deck.nodesOfCard card).map (·.id) =
      (List.range card.phantoms.length).map (phantomNodeId card.slot.nodeId) ++
        [card.slot.nodeId] := by
  unfold nodesOfCard
  rw [List.map_append, List.map_map, List.range_eq_range', ← List.zipIdx_map_snd,
    List.map_map]
  rfl

theorem map_id_rawNodes : deck.rawNodes.map (·.id) = deck.nodeIds := by
  unfold rawNodes
  rw [nodeIds, List.map_append, List.map_map, List.map_flatMap]
  simp only [map_id_nodesOfCard]
  rfl

theorem mem_nodesOfCard {card : DeckCard α} {node : Node α} :
    node ∈ deck.nodesOfCard card ↔
      (∃ index phantom, card.phantoms[index]? = some phantom ∧
        node = deck.phantomNode card.slot.nodeId phantom index) ∨ node = deck.cardNode card := by
  unfold nodesOfCard
  rw [List.mem_append, List.mem_singleton, List.mem_map]
  refine or_congr_left ⟨?_, ?_⟩
  · intro entry
    obtain ⟨⟨phantom, index⟩, listed, rfl⟩ := entry
    exact ⟨index, phantom, List.mem_zipIdx_iff_getElem?.mp listed, rfl⟩
  · intro place
    obtain ⟨index, phantom, found, rfl⟩ := place
    exact ⟨(phantom, index), List.mem_zipIdx_iff_getElem?.mpr found, rfl⟩

theorem not_isGroup_of_mem_nodesOfCard {card : DeckCard α} {node : Node α}
    (listed : node ∈ deck.nodesOfCard card) : ¬ node.isGroup := by
  rcases mem_nodesOfCard.mp listed with ⟨index, phantom, -, rfl⟩ | rfl <;>
    exact Bool.false_ne_true

theorem namesZone_eq_true_iff {id : String} :
    deck.namesZone id = true ↔ ∃ zone ∈ deck.zones, zone.id = id := by
  simp [namesZone]

variable {node : Node α}

/-- A node of a deck is that of a zone, of a phantom or of a card. -/
theorem mem_rawNodes : node ∈ deck.rawNodes ↔
    (∃ zone ∈ deck.zones, deck.zoneNode zone = node) ∨
      ∃ card ∈ deck.cards, node ∈ deck.nodesOfCard card := by
  rw [rawNodes, List.mem_append, List.mem_map, List.mem_flatMap]

/-- The parent of a node is a zone, and for the node of a zone another one. -/
theorem parent_of_mem_rawNodes (made : node ∈ deck.rawNodes) {parent : String}
    (above : node.parent = some parent) :
    deck.namesZone parent ∧ (node.isGroup → parent ≠ node.id) := by
  have known {position : Position α} (here : deck.knownParent? position = some parent) :
      deck.namesZone parent :=
    (Option.filter_eq_some_iff.mp here).2
  rcases mem_rawNodes.mp made with ⟨zone, -, rfl⟩ | ⟨card, -, listed⟩
  · obtain ⟨outer, found, rfl⟩ := Option.map_eq_some_iff.mp above
    have lists := List.find?_some found
    rw [Bool.and_eq_true, bne_iff_ne] at lists
    exact ⟨namesZone_eq_true_iff.mpr ⟨outer, List.mem_of_find?_eq_some found, rfl⟩,
      fun _ => lists.1⟩
  · refine ⟨?_, fun isGroup => (not_isGroup_of_mem_nodesOfCard listed isGroup).elim⟩
    rcases mem_nodesOfCard.mp listed with ⟨index, phantom, -, rfl⟩ | rfl
    · exact known above
    · rcases Option.or_eq_some_iff.mp above with here | ⟨-, here⟩
      · obtain ⟨outer, found, rfl⟩ := Option.map_eq_some_iff.mp here
        exact namesZone_eq_true_iff.mpr ⟨outer, List.mem_of_find?_eq_some found, rfl⟩
      · exact known here

theorem parent_of_isGroup (made : node ∈ deck.rawNodes) (isGroup : node.isGroup) :
    node.parent = deck.zoneParent? node.id := by
  rcases mem_rawNodes.mp made with ⟨zone, -, rfl⟩ | ⟨card, -, listed⟩
  · rfl
  · exact (not_isGroup_of_mem_nodesOfCard listed isGroup).elim

theorem parent_of_isCard (made : node ∈ deck.rawNodes) (isCard : node.isCard) {zone : String}
    (lists : deck.cardParent? node.id = some zone) : node.parent = some zone := by
  rcases mem_rawNodes.mp made with ⟨zone, -, rfl⟩ | ⟨card, -, listed⟩
  · cases isCard
  · rcases mem_nodesOfCard.mp listed with ⟨index, phantom, -, rfl⟩ | rfl
    · cases isCard
    · exact Option.or_eq_some_iff.mpr (.inl lists)

/-! ## The first node of each ID -/

theorem find?_rawNodes_of_namesZone {id : String} (known : deck.namesZone id) :
    ∃ zone, zone.id = id ∧ deck.rawNodes.find? (·.id == id) = some (deck.zoneNode zone) := by
  obtain ⟨listed, present, named⟩ := namesZone_eq_true_iff.mp known
  obtain ⟨zone, found⟩ := Option.isSome_iff_exists.mp
    (List.find?_isSome.mpr ⟨listed, present, by simpa using named⟩ :
      (deck.zones.find? (·.id == id)).isSome)
  refine ⟨zone, by simpa using List.find?_some found, ?_⟩
  rw [rawNodes, List.find?_append, List.find?_map]
  exact Option.or_eq_some_iff.mpr (.inl (congrArg (Option.map deck.zoneNode) found))

theorem find?_rawNodes_of_mem_distinct (first : node ∈ Node.distinct deck.rawNodes) :
    deck.rawNodes.find? (·.id == node.id) = some node :=
  find?_of_mem_distinctBy first

theorem mem_rawNodes_of_mem_distinct (first : node ∈ Node.distinct deck.rawNodes) :
    node ∈ deck.rawNodes :=
  (distinctBy_sublist _).subset first

theorem isGroup_iff_namesZone (first : node ∈ Node.distinct deck.rawNodes) :
    node.isGroup ↔ deck.namesZone node.id := by
  constructor
  · intro isGroup
    rcases mem_rawNodes.mp (mem_rawNodes_of_mem_distinct first) with
      ⟨zone, present, rfl⟩ | ⟨card, -, listed⟩
    · exact namesZone_eq_true_iff.mpr ⟨zone, present, rfl⟩
    · exact (not_isGroup_of_mem_nodesOfCard listed isGroup).elim
  · intro known
    obtain ⟨zone, -, found⟩ := find?_rawNodes_of_namesZone known
    rw [find?_rawNodes_of_mem_distinct first, Option.some_inj] at found
    rw [found]
    rfl

theorem exists_group_of_namesZone {id : String} (known : deck.namesZone id) :
    ∃ group ∈ Node.distinct deck.rawNodes, group.isGroup ∧ group.id = id := by
  obtain ⟨zone, rfl, found⟩ := find?_rawNodes_of_namesZone known
  rw [← find?_distinctBy] at found
  exact ⟨deck.zoneNode zone, List.mem_of_find?_eq_some found, rfl, rfl⟩

/-- The zones come first, so no first node has a parent that is itself or no group. -/
theorem not_loose_of_mem_distinct (first : node ∈ Node.distinct deck.rawNodes) :
    ¬ Node.Loose (Node.distinct deck.rawNodes) node := by
  intro loose
  obtain ⟨parent, above, astray⟩ := loose
  obtain ⟨known, apart⟩ := parent_of_mem_rawNodes (mem_rawNodes_of_mem_distinct first) above
  rcases astray with rfl | none
  · exact apart ((isGroup_iff_namesZone first).mpr known) rfl
  · obtain ⟨group, inside, isGroup, named⟩ := exists_group_of_namesZone known
    exact none group inside isGroup named

theorem namesZone_of_nests {id parent : String}
    (nests : Node.Nests (Node.distinct deck.rawNodes) id parent) : deck.namesZone parent := by
  obtain ⟨node, first, -, above, -⟩ := nests
  exact (parent_of_mem_rawNodes (mem_rawNodes_of_mem_distinct first) above).1

end Deck

end DeckBuilder
