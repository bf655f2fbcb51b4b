import DeckBuilder.Proofs.Deck.RawNodes
import DeckBuilder.Proofs.Deck.Reopen
import DeckBuilder.Proofs.Deck.Resaving

/-! # Opening and saving a deck

A deck whose nodes have distinct IDs is opened and saved without loss, whatever its zones list. The
first time may give parents their final form and order the zones; after that nothing changes.
-/

namespace DeckBuilder

variable {α : Type}

namespace Deck

/-! ## Building the board -/

section

variable {deck : Deck α} (distinct : deck.nodeIds.Nodup)

include distinct

theorem distinct_rawNodes : Node.distinct deck.rawNodes = deck.rawNodes :=
  distinctBy_eq_self (map_id_rawNodes ▸ distinct)

omit distinct in
theorem not_orphan_of_mem_rawNodes {node : Node α} (member : node ∈ deck.rawNodes) :
    ¬ Node.Orphan deck.rawNodes node := by
  intro orphan
  obtain ⟨owner, index, data, none⟩ := orphan
  rcases mem_rawNodes.mp member with ⟨zone, -, rfl⟩ | ⟨card, present, listed⟩
  · cases data
  · have owned := owner_of_mem_nodesOfCard listed
    rw [Node.owner, data] at owned
    exact none (deck.cardNode card)
      (mem_rawNodes.mpr (.inr ⟨card, present, mem_nodesOfCard.mpr (.inr rfl)⟩)) rfl owned.symm

/-- Of the nodes that a deck makes, repair can only detach groups. -/
theorem exists_ofNodes_rawNodes_eq : ∃ change : Node α → Node α,
    (∀ node, ∃ parent, change node = { node with parent }) ∧
      (Board.ofNodes deck.rawNodes).nodes =
        deck.zones.map (fun zone => change (deck.zoneNode zone)) ++
          deck.cards.flatMap deck.nodesOfCard := by
  obtain ⟨cuts, built, cut⟩ := Board.exists_ofNodes_eq deck.rawNodes
  have owned : (deck.rawNodes.filter fun node => ¬ Node.Orphan deck.rawNodes node) =
      deck.rawNodes :=
    List.filter_eq_self.mpr fun node member => decide_eq_true (not_orphan_of_mem_rawNodes member)
  refine ⟨Node.mend deck.rawNodes cuts, fun node => ?_, ?_⟩
  · unfold Node.mend
    split
    · exact ⟨none, rfl⟩
    · exact ⟨node.parent, rfl⟩
  · have kept : (deck.cards.flatMap deck.nodesOfCard).map (Node.mend deck.rawNodes cuts) =
        deck.cards.flatMap deck.nodesOfCard := by
      refine (List.map_congr_left fun node listed => if_neg ?_).trans (List.map_id _)
      have first : node ∈ Node.distinct deck.rawNodes :=
        (distinct_rawNodes distinct).symm ▸ List.mem_append_right _ listed
      rintro (loose | severed)
      · exact not_loose_of_mem_distinct first ((distinct_rawNodes distinct).symm ▸ loose)
      · -- A node on a cycle is the parent of a node, and so a zone.
        obtain ⟨_, -, nests⟩ := Relation.TransGen.tail'_iff.mp ((cut node.id).mp severed).1
        obtain ⟨card, -, isOf⟩ := List.mem_flatMap.mp listed
        exact not_isGroup_of_mem_nodesOfCard isOf
          ((isGroup_iff_namesZone first).mpr (namesZone_of_nests nests))
    rw [distinct_rawNodes distinct] at built
    rw [built, Board.indexed, owned, rawNodes, List.map_append, List.map_map, ← rawNodes, kept]
    rfl

end

/-! ## The board of a deck -/

section

theorem toNodes_perm (deck : Deck α) : deck.toNodes.Perm (Board.ofNodes deck.rawNodes).nodes :=
  Board.sortByNesting_perm _

theorem repaired_toNodes (deck : Deck α) : Node.Repaired deck.toNodes :=
  (Board.repaired_ofNodes deck.rawNodes).perm deck.toNodes_perm.symm

theorem ofNodes_toNodes (deck : Deck α) : (Board.ofNodes deck.toNodes).nodes = deck.toNodes :=
  Board.ofNodes_nodes_of_repaired deck.repaired_toNodes

variable {deck : Deck α} (distinct : deck.nodeIds.Nodup)

include distinct

/-- The cards and phantoms on the board are those of the deck. -/
theorem mem_toNodes {node : Node α} (noGroup : ¬ node.isGroup) :
    node ∈ deck.toNodes ↔ ∃ card ∈ deck.cards, node ∈ deck.nodesOfCard card := by
  obtain ⟨change, moved, built⟩ := exists_ofNodes_rawNodes_eq distinct
  rw [deck.toNodes_perm.mem_iff, built, List.mem_append, List.mem_flatMap]
  refine or_iff_right ?_
  intro listed
  obtain ⟨zone, -, rfl⟩ := List.mem_map.mp listed
  obtain ⟨parent, same⟩ := moved (deck.zoneNode zone)
  rw [same] at noGroup
  exact noGroup rfl

theorem nodup_nodeId_cards : (deck.cards.map (·.slot.nodeId)).Nodup := by
  have apart := (List.nodup_flatMap.mp (List.nodup_append.mp distinct).2.1).2
  refine List.pairwise_map.mpr (apart.imp fun disjoint same => ?_)
  refine disjoint (List.mem_append_right _ (List.mem_singleton.mpr rfl)) ?_
  exact List.mem_append_right _ (List.mem_singleton.mpr same)

theorem nodup_slot_cards : (deck.cards.map (·.slot)).Nodup := by
  have ids := nodup_nodeId_cards distinct
  rw [show (fun card : DeckCard α => card.slot.nodeId) = Slot.nodeId ∘ (·.slot) from rfl,
    ← List.map_map] at ids
  exact ids.of_map

/-- What belongs to the node of a card is made by that card. -/
theorem mem_nodesOfCard_of_owner {card : DeckCard α} (present : card ∈ deck.cards)
    {node : Node α} (noGroup : ¬ node.isGroup) (member : node ∈ deck.toNodes)
    (owned : node.owner = card.slot.nodeId) : node ∈ deck.nodesOfCard card := by
  obtain ⟨other, alsoPresent, listed⟩ := (mem_toNodes distinct noGroup).mp member
  have same : other.slot.nodeId = card.slot.nodeId :=
    (owner_of_mem_nodesOfCard listed).symm.trans owned
  rwa [← List.inj_on_of_nodup_map (nodup_nodeId_cards distinct) alsoPresent present same]

/-- A card node of the board is that of its slot. -/
theorem exists_card_of_slot? {node : Node α} (member : node ∈ deck.toNodes) {slot : Slot}
    (named : node.slot? = some slot) :
    ∃ card ∈ deck.cards, card.slot = slot ∧ node = deck.cardNode card := by
  have noGroup := Node.not_isGroup_of_slot? named
  obtain ⟨card, present, listed⟩ := (mem_toNodes distinct noGroup).mp member
  rcases mem_nodesOfCard.mp listed with ⟨index, phantom, -, rfl⟩ | rfl
  · cases named
  · exact ⟨card, present, Option.some.inj named, rfl⟩

theorem cardNode_mem_toNodes {card : DeckCard α} (present : card ∈ deck.cards) :
    deck.cardNode card ∈ deck.toNodes :=
  have listed : deck.cardNode card ∈ deck.nodesOfCard card := mem_nodesOfCard.mpr (.inr rfl)
  (mem_toNodes distinct (not_isGroup_of_mem_nodesOfCard listed)).mpr ⟨card, present, listed⟩

/-- The phantoms of a card are numbered by their places. -/
theorem mem_toNodes_phantom {card : DeckCard α} (present : card ∈ deck.cards) {node : Node α}
    {index : Nat} (data : node.data = .phantom card.slot.nodeId index) :
    node ∈ deck.toNodes ↔ ∃ phantom, card.phantoms[index]? = some phantom ∧
      node = deck.phantomNode card.slot.nodeId phantom index := by
  have noGroup : ¬ node.isGroup := by simp [Node.isGroup, data]
  constructor
  · intro member
    have listed := mem_nodesOfCard_of_owner distinct present noGroup member
      (by rw [Node.owner, data])
    rcases mem_nodesOfCard.mp listed with ⟨place, phantom, found, rfl⟩ | rfl
    · cases data
      exact ⟨phantom, found, rfl⟩
    · cases data
  · intro place
    obtain ⟨phantom, found, rfl⟩ := place
    exact (mem_toNodes distinct noGroup).mpr
      ⟨card, present, mem_nodesOfCard.mpr (.inl ⟨index, phantom, found, rfl⟩)⟩

theorem numbered_toNodes {card : DeckCard α} (present : card ∈ deck.cards) (index : Nat) :
    (∃ node ∈ deck.toNodes, node.data = .phantom card.slot.nodeId index) ↔
      index < card.phantoms.length := by
  constructor
  · intro phantomOf
    obtain ⟨phantom, listed, data⟩ := phantomOf
    obtain ⟨_, found, -⟩ := (mem_toNodes_phantom distinct present data).mp listed
    exact (List.getElem?_eq_some_iff.mp found).1
  · intro inside
    have found := List.getElem?_eq_getElem inside
    exact ⟨_, (mem_toNodes_phantom distinct present rfl).mpr ⟨_, found, rfl⟩, rfl⟩

theorem canonical_toNodes : Node.Canonical (Board.ofNodes deck.toNodes).nodes := by
  rw [ofNodes_toNodes]
  refine ⟨?_, ?_, ?_⟩
  · intro node member slot named
    obtain ⟨card, -, rfl, rfl⟩ := exists_card_of_slot? distinct member named
    rfl
  · intro node member owner index data
    have noGroup : ¬ node.isGroup := by simp [Node.isGroup, data]
    obtain ⟨card, -, listed⟩ := (mem_toNodes distinct noGroup).mp member
    rcases mem_nodesOfCard.mp listed with ⟨place, phantom, -, rfl⟩ | rfl
    · cases data
      rfl
    · cases data
  · intro node member isCard
    obtain ⟨slot, named⟩ := Node.exists_slot? isCard
    obtain ⟨card, present, rfl, rfl⟩ := exists_card_of_slot? distinct member named
    exact ⟨card.phantoms.length, numbered_toNodes distinct present⟩

theorem onBoard_toNodes : deck.OnBoard (Board.ofNodes deck.toNodes).nodes := by
  rw [ofNodes_toNodes]
  refine ⟨nodup_slot_cards distinct, ?_, ?_⟩
  · intro card present
    exact ⟨deck.cardNode card, cardNode_mem_toNodes distinct present, rfl⟩
  · intro card present node member named unversioned
    obtain ⟨other, alsoPresent, same, rfl⟩ := exists_card_of_slot? distinct member named
    rw [← List.inj_on_of_nodup_map (nodup_slot_cards distinct) alsoPresent present same]
    exact unversioned

/-! ## The cards of the saved deck -/

/-- The phantoms of a card are listed in their order. -/
theorem sortedPhantoms_toNodes {card : DeckCard α} (present : card ∈ deck.cards) :
    (Board.ofNodes deck.toNodes).sortedPhantoms card.slot.nodeId =
      card.phantoms.zipIdx.map fun entry =>
        deck.phantomNode card.slot.nodeId entry.1 entry.2 := by
  have nodes := deck.ofNodes_toNodes
  have numbers : ((Board.ofNodes deck.toNodes).sortedPhantoms card.slot.nodeId).map
      (·.number card.slot.nodeId) = List.range card.phantoms.length := by
    refine Board.map_number_sortedPhantoms (Board.keyed_ofNodes _).distinct
      (canonical_toNodes distinct) ?_
    rw [nodes]
    exact numbered_toNodes distinct present
  have length := congrArg List.length numbers
  rw [List.length_map, List.length_range] at length
  apply List.ext_getElem?
  intro place
  rw [List.getElem?_map, List.getElem?_zipIdx, Nat.zero_add]
  cases found : ((Board.ofNodes deck.toNodes).sortedPhantoms card.slot.nodeId)[place]? with
  | none =>
    rw [List.getElem?_eq_none_iff, length, ← List.getElem?_eq_none_iff] at found
    rw [found]
    rfl
  | some node =>
    have data := Board.data_of_getElem?_sortedPhantoms numbers found
    have inside := (Board.mem_sortedPhantoms.mp (List.mem_of_getElem? found)).1
    rw [nodes] at inside
    obtain ⟨phantom, same, rfl⟩ := (mem_toNodes_phantom distinct present data).mp inside
    rw [same]
    rfl

theorem firstNode?_toNodes {card : DeckCard α} (present : card ∈ deck.cards) :
    (Board.ofNodes deck.toNodes).firstNode? card.slot = some (deck.cardNode card) := by
  have member := cardNode_mem_toNodes distinct present
  rw [← ofNodes_toNodes] at member
  obtain ⟨first, found⟩ := Board.exists_firstNode? member rfl
  obtain ⟨inside, named⟩ := Board.mem_of_firstNode? found
  rw [ofNodes_toNodes] at inside
  obtain ⟨other, alsoPresent, same, rfl⟩ := exists_card_of_slot? distinct inside named
  rw [List.inj_on_of_nodup_map (nodup_slot_cards distinct) alsoPresent present same] at found
  exact found

end

/-- A placement whose parent is a zone of the deck. -/
def settle (deck : Deck α) (position : Position α) : Position α :=
  { position with parent := deck.knownParent? position }

/-- A card whose placements have the parents that the deck gives them. -/
def settleCard (deck : Deck α) (card : DeckCard α) : DeckCard α :=
  { card with
    position := (deck.cardNode card).placement
    phantoms := card.phantoms.map deck.settle }

section

variable {deck : Deck α} (distinct : deck.nodeIds.Nodup)

include distinct

theorem deckCard?_cardNode {card : DeckCard α} (present : card ∈ deck.cards) :
    (Board.ofNodes deck.toNodes).deckCard? deck.cards (deck.cardNode card) =
      some (deck.settleCard card) := by
  have slots := nodup_slot_cards distinct
  have prior : deck.cards.reverse.find? (·.slot == ⟨card.cardId, card.part⟩) = some card := by
    rw [Lists.find?_reverse slots]
    exact find?_eq_some_of_mem slots present
  have phantoms : (Board.ofNodes deck.toNodes).phantomsOf card.slot.nodeId =
      (deck.settleCard card).phantoms := by
    rw [Board.phantomsOf_eq, sortedPhantoms_toNodes distinct present, List.map_map]
    rw [show ((·.placement) ∘ fun entry : Position α × Nat =>
      deck.phantomNode card.slot.nodeId entry.1 entry.2) = deck.settle ∘ Prod.fst from rfl,
      ← List.map_map, List.zipIdx_map_fst]
    rfl
  simp only [Board.deckCard?, cardNode, prior, phantoms, Option.map_some, Option.getD_some,
    Option.bind_some, Option.or_self]
  rfl

theorem cards_reconcile_toNodes :
    (deck.reconcile deck.toNodes).cards = deck.cards.map deck.settleCard := by
  rw [cards_reconcile (onBoard_toNodes distinct),
    Board.toDeckCards_eq_map _ (nodup_slot_cards distinct)]
  · apply List.map_congr_left
    intro card present
    rw [firstNode?_toNodes distinct present, Option.bind_some, deckCard?_cardNode distinct present,
      Option.getD_some]
  · intro node member slot named
    rw [ofNodes_toNodes] at member
    obtain ⟨card, present, rfl, -⟩ := exists_card_of_slot? distinct member named
    exact List.mem_map_of_mem present

theorem nodesOfCard_settleCard {card : DeckCard α} (present : card ∈ deck.cards) :
    (deck.reconcile deck.toNodes).nodesOfCard (deck.settleCard card) = deck.nodesOfCard card := by
  have member : deck.cardNode card ∈ (Board.ofNodes deck.toNodes).nodes := by
    rw [ofNodes_toNodes]
    exact cardNode_mem_toNodes distinct present
  rw [nodesOfCard_eq rfl (Board.repaired_ofNodes _) (canonical_toNodes distinct) member
    (deckCard?_cardNode distinct present) fun unversioned => unversioned, nodesOfCard]
  exact congrArg (· ++ _) (sortedPhantoms_toNodes distinct present)

/-! ## The nodes of the saved deck -/

theorem nodes_ofNodes_rawNodes : (Board.ofNodes deck.rawNodes).nodes =
    (Board.ofNodes deck.rawNodes).nodes.filter (·.isGroup) ++
      deck.cards.flatMap deck.nodesOfCard := by
  obtain ⟨change, moved, built⟩ := exists_ofNodes_rawNodes_eq distinct
  have groups : (deck.zones.map fun zone => change (deck.zoneNode zone)).filter (·.isGroup) =
      deck.zones.map fun zone => change (deck.zoneNode zone) := by
    apply List.filter_eq_self.mpr
    intro node listed
    obtain ⟨zone, -, rfl⟩ := List.mem_map.mp listed
    obtain ⟨parent, same⟩ := moved (deck.zoneNode zone)
    rw [same]
    rfl
  have others : (deck.cards.flatMap deck.nodesOfCard).filter (·.isGroup) = [] := by
    apply List.filter_eq_nil_iff.mpr
    intro node listed
    obtain ⟨card, -, isOf⟩ := List.mem_flatMap.mp listed
    exact not_isGroup_of_mem_nodesOfCard isOf
  rw [built, List.filter_append, groups, others, List.append_nil]

/-- The saved deck makes the groups in the order of the board, and the other nodes as before. -/
theorem rawNodes_reconcile_toNodes : (deck.reconcile deck.toNodes).rawNodes =
    deck.toNodes.filter (·.isGroup) ++ deck.cards.flatMap deck.nodesOfCard := by
  have others : (deck.cards.map deck.settleCard).flatMap
      (deck.reconcile deck.toNodes).nodesOfCard = deck.cards.flatMap deck.nodesOfCard := by
    rw [List.flatMap_map]
    exact List.flatMap_congr fun card present => nodesOfCard_settleCard distinct present
  unfold rawNodes
  rw [map_zoneNode_reconcile, ofNodes_toNodes, cards_reconcile_toNodes distinct, others]

/-- Opening a saved deck shows the same nodes in the same order. -/
theorem toNodes_reconcile_toNodes : (deck.reconcile deck.toNodes).toNodes = deck.toNodes := by
  have perm : (deck.reconcile deck.toNodes).rawNodes.Perm (Board.ofNodes deck.rawNodes).nodes := by
    have saved := rawNodes_reconcile_perm (onBoard_toNodes distinct) (canonical_toNodes distinct)
    rw [ofNodes_toNodes] at saved
    exact saved.trans deck.toNodes_perm
  have unchanged : (Board.ofNodes (deck.reconcile deck.toNodes).rawNodes).nodes =
      (deck.reconcile deck.toNodes).rawNodes :=
    Board.ofNodes_nodes_of_repaired ((Board.repaired_ofNodes deck.rawNodes).perm perm.symm)
  symm
  refine Board.sortByNesting_eq_of_filter (Board.keyed_ofNodes _) (Board.keyed_ofNodes _) ?_ ?_
  · rw [unchanged]
    exact perm.symm
  · intro code
    -- The saved deck makes the groups in sorted order, which changes nothing within a rank.
    have tied := OrderCode.filter_mergeSort (Board.ofNodes deck.rawNodes).nestingCode
      (Board.ofNodes deck.rawNodes).nodes code (·.isGroup)
    rw [← Board.nodes_sortByNesting, ← toNodes] at tied
    simp only [Bool.and_comm, ← List.filter_filter] at tied
    rw [unchanged, rawNodes_reconcile_toNodes distinct, List.filter_append, tied,
      ← List.filter_append, ← nodes_ofNodes_rawNodes distinct]

end

end Deck

/-! ## Contents -/

/-- A card without the parents of its placements. -/
def DeckCard.bare (card : DeckCard α) : DeckCard α :=
  { card with
    position := .free card.position.point
    phantoms := card.phantoms.map fun phantom => .free phantom.point }

/-- A zone without its lists. -/
def Zone.bare (zone : Zone α) : Zone α :=
  { zone with cardChildren := [], zoneChildren := [] }

/-- The zone of a group, without its lists. -/
def Node.bareZone? (node : Node α) : Option (Zone α) :=
  match node.data with
  | .group label width height => some ⟨node.id, label, node.position, width, height, [], []⟩
  | _ => none

namespace Deck

/-- A saved deck has the contents of the deck. Only parents, the lists of zones and the order of
zones may differ. -/
structure SameContents (deck saved : Deck α) : Prop where
  id : saved.id = deck.id
  name : saved.name = deck.name
  ignored : saved.ignored = deck.ignored
  cover : saved.cover = deck.cover
  cards : saved.cards.map (·.bare) = deck.cards.map (·.bare)
  zones : (saved.zones.map (·.bare)).Perm (deck.zones.map (·.bare))

section

variable {deck : Deck α} (distinct : deck.nodeIds.Nodup)

include distinct

omit distinct in
theorem map_bare_toZones (board : Board α) :
    board.toZones.map (·.bare) = board.nodes.filterMap (·.bareZone?) := by
  unfold Board.toZones
  rw [List.map_filterMap]
  apply List.filterMap_congr
  intro node _
  cases data : node.data <;> simp only [Board.zone?, Node.bareZone?, data] <;> rfl

theorem map_bare_reconcile_toNodes :
    ((deck.reconcile deck.toNodes).zones.map (·.bare)).Perm (deck.zones.map (·.bare)) := by
  obtain ⟨change, moved, built⟩ := exists_ofNodes_rawNodes_eq distinct
  have groups : (deck.zones.map fun zone => change (deck.zoneNode zone)).filterMap (·.bareZone?) =
      deck.zones.map (·.bare) := by
    rw [List.filterMap_map, ← List.filterMap_eq_map]
    apply List.filterMap_congr
    intro zone _
    rw [Function.comp_apply]
    obtain ⟨parent, same⟩ := moved (deck.zoneNode zone)
    rw [same]
    rfl
  have others : (deck.cards.flatMap deck.nodesOfCard).filterMap (·.bareZone?) = [] := by
    apply List.filterMap_eq_nil_iff.mpr
    intro node listed
    obtain ⟨card, -, isOf⟩ := List.mem_flatMap.mp listed
    rcases mem_nodesOfCard.mp isOf with ⟨index, phantom, -, rfl⟩ | rfl <;> rfl
  have saved : (deck.reconcile deck.toNodes).zones.map (·.bare) =
      deck.toNodes.filterMap (·.bareZone?) := by
    refine (map_bare_toZones (Board.ofNodes deck.toNodes)).trans ?_
    rw [ofNodes_toNodes]
  rw [saved]
  refine (deck.toNodes_perm.filterMap _).trans ?_
  rw [built, List.filterMap_append, groups, others, List.append_nil]

theorem sameContents_reconcile_toNodes : deck.SameContents (deck.reconcile deck.toNodes) := by
  refine ⟨rfl, rfl, rfl, rfl, ?_, map_bare_reconcile_toNodes distinct⟩
  rw [cards_reconcile_toNodes distinct, List.map_map]
  apply List.map_congr_left
  intro card _
  simp only [Function.comp_apply, settleCard, DeckCard.bare, List.map_map]
  rfl

end

/-- **Opening and saving a deck is stable.** Whatever the zones list, the saved deck has the same
contents, opens as the same board, and stays as it is when that board is saved. -/
theorem reconcile_toNodes_stable (deck : Deck α) (distinct : deck.nodeIds.Nodup) :
    deck.SameContents (deck.reconcile deck.toNodes) ∧
      (deck.reconcile deck.toNodes).toNodes = deck.toNodes ∧
      (deck.reconcile deck.toNodes).reconcile (deck.reconcile deck.toNodes).toNodes =
        deck.reconcile deck.toNodes := by
  have opened := toNodes_reconcile_toNodes distinct
  refine ⟨sameContents_reconcile_toNodes distinct, opened, ?_⟩
  rw [opened]
  exact reconcile_reconcile deck deck.toNodes

/-- A deck whose zones list each other in a circle, one card twice, and strangers. -/
def tangledDeck : Deck Nat :=
  ⟨"d", "Tangle",
    [⟨"shock", 3, .main, .commander, some "2xm", ⟨1, 2, some "b"⟩,
        [⟨3, 4, some "a"⟩, ⟨5, 6, some "gone"⟩]⟩,
      ⟨"shock", 2, .sideboard, .normal, none, ⟨7, 8, some "gone"⟩, []⟩],
    [⟨"a", "Ramp", ⟨0, 0⟩, 300, 200, ["shock", "stranger"], ["b", "a", "gone"]⟩,
      ⟨"b", "Draw", ⟨40, 0⟩, 300, 200, ["shock"], ["c"]⟩,
      ⟨"c", "Burn", ⟨80, 0⟩, 300, 200, [], ["b", "a"]⟩],
    ["bolt"], some "shock"⟩

theorem reconcile_toNodes_stable_tangledDeck :
    tangledDeck.nodeIds.Nodup ∧
      tangledDeck.SameContents (tangledDeck.reconcile tangledDeck.toNodes) ∧
      (tangledDeck.reconcile tangledDeck.toNodes).toNodes = tangledDeck.toNodes ∧
      (tangledDeck.reconcile tangledDeck.toNodes).reconcile
        (tangledDeck.reconcile tangledDeck.toNodes).toNodes =
          tangledDeck.reconcile tangledDeck.toNodes :=
  ⟨by decide, reconcile_toNodes_stable tangledDeck (by decide)⟩

end Deck

end DeckBuilder
