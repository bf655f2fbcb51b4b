import DeckBuilder.Proofs.Deck.Integrity
import DeckBuilder.Proofs.Deck.Reopen

/-! # Zone membership in a saved deck

A saved deck says twice in which zone a card lies: the position of the card names a zone, and the
zones list their cards. A card that the board shows has both from the pointer of its node, and they
agree. A card that the board does not show keeps its position, and as the lists are made from nodes
alone, no zone lists it. Opening the deck puts either card into the zone that its position names.
-/

namespace DeckBuilder

variable {α : Type}

/-- A card node of the board stands for the slot. -/
def Board.HasSlot (board : Board α) (slot : Slot) : Prop :=
  ∃ node ∈ board.nodes, node.slot? = some slot

/-- A card node of the board has the ID. -/
def Board.HasCardId (board : Board α) (id : String) : Prop :=
  ∃ node ∈ board.nodes, node.isCard ∧ node.id = id

namespace Deck

/-- The position of a card names just the zone that lists the card. -/
def Agrees (deck : Deck α) (card : DeckCard α) : Prop :=
  ∀ zone ∈ deck.zones, card.position.parent = some zone.id ↔ card.slot.nodeId ∈ zone.cardChildren

/-- No zone lists the card. -/
def Unlisted (deck : Deck α) (card : DeckCard α) : Prop :=
  ∀ zone ∈ deck.zones, card.slot.nodeId ∉ zone.cardChildren

/-- The card is one of the previous deck, which loses only parents that are no zones: it lies in
the same zone as before, as far as that zone is there. -/
def KeptFrom (previous deck : Deck α) (card : DeckCard α) : Prop :=
  ∃ prior ∈ previous.cards, card = prior.within deck.zones ∧
    ∀ zone ∈ deck.zones,
      card.position.parent = some zone.id ↔ prior.position.parent = some zone.id

section

variable {deck : Deck α} {nodes : List (Node α)} (slots : (deck.cards.map (·.slot)).Nodup)

include slots

/-- A card that the board shows lies where its node lies. -/
theorem exists_node_of_hasSlot {card : DeckCard α} (member : card ∈ (deck.reconcile nodes).cards)
    (shown : (Board.ofNodes nodes).HasSlot card.slot) :
    ∃ node ∈ (Board.ofNodes nodes).nodes, node.slot? = some card.slot ∧
      card.position = node.placement := by
  let board := Board.ofNodes nodes
  obtain ⟨record, merged, rfl⟩ := List.mem_map.mp member
  rcases board.mem_toDeckCards slots merged with ⟨node, first, made⟩ | ⟨unplaced, -⟩
  · obtain ⟨inside, named⟩ := Board.mem_of_firstNode? first
    refine ⟨node, inside, named, ?_⟩
    rw [Board.within_of_deckCard? (Board.repaired_ofNodes nodes) inside made]
    exact (board.shows_of_deckCard? slots made).1.position
  · obtain ⟨node, inside, named⟩ := shown
    obtain ⟨first, found⟩ := Board.exists_firstNode? inside named
    rw [show board.firstNode? record.slot = some first from found] at unplaced
    cases unplaced

theorem keptFrom_of_not_hasSlot {card : DeckCard α} (member : card ∈ (deck.reconcile nodes).cards)
    (absent : ¬ (Board.ofNodes nodes).HasSlot card.slot) :
    deck.KeptFrom (deck.reconcile nodes) card := by
  obtain ⟨record, merged, rfl⟩ := List.mem_map.mp member
  rcases (Board.ofNodes nodes).mem_toDeckCards slots merged with ⟨node, first, -⟩ | ⟨-, present⟩
  · exact absurd ⟨node, Board.mem_of_firstNode? first⟩ absent
  · exact ⟨record, present, rfl, fun zone => record.position.parent_within_eq_iff⟩

end

theorem knownParent?_within (deck : Deck α) (position : Position α) :
    deck.knownParent? (position.within deck.zones) = (position.within deck.zones).parent := by
  unfold knownParent? namesZone Position.within
  simp only [Option.filter_filter, Bool.and_self]

theorem unlisted_of_not_hasCardId {deck : Deck α} {nodes : List (Node α)} {card : DeckCard α}
    (absent : ¬ (Board.ofNodes nodes).HasCardId card.slot.nodeId) :
    (deck.reconcile nodes).Unlisted card := by
  intro zone inside listed
  rw [(Board.children_eq inside).1] at listed
  obtain ⟨child, present, isCard, -, named⟩ := Board.mem_map_id_children.mp listed
  exact absent ⟨child, present, isCard, named⟩

section

variable {deck : Deck α} {nodes : List (Node α)} (slots : (deck.cards.map (·.slot)).Nodup)
  (ids : ∀ node ∈ nodes, ∀ slot ∈ node.slot?, node.id = slot.nodeId)

include slots ids

/-- The node of a card that the board shows has the ID that the zones would list. -/
theorem exists_node_of_hasSlot_of_ids {card : DeckCard α}
    (member : card ∈ (deck.reconcile nodes).cards)
    (shown : (Board.ofNodes nodes).HasSlot card.slot) :
    ∃ node ∈ (Board.ofNodes nodes).nodes, node.isCard ∧ node.id = card.slot.nodeId ∧
      card.position = node.placement := by
  obtain ⟨node, inside, named, position⟩ := exists_node_of_hasSlot slots member shown
  obtain ⟨given, present, id, data⟩ := Board.exists_given_of_mem_ofNodes inside
  have alsoNamed : given.slot? = some card.slot := by rw [← named, Node.slot?, Node.slot?, data]
  exact ⟨node, inside, Node.isCard_of_slot? named, id ▸ ids given present _ alsoNamed, position⟩

theorem agrees_of_hasSlot {card : DeckCard α} (member : card ∈ (deck.reconcile nodes).cards)
    (shown : (Board.ofNodes nodes).HasSlot card.slot) : (deck.reconcile nodes).Agrees card := by
  intro zone inside
  obtain ⟨node, present, isCard, id, position⟩ :=
    exists_node_of_hasSlot_of_ids slots ids member shown
  rw [position, ← id, (Board.children_eq inside).1,
    Board.id_mem_map_id_children (Board.keyed_ofNodes nodes).distinct present isCard]
  rfl

/-- Opening the saved deck puts a card into the zone that its position names, unless the node of
another slot has its ID. -/
theorem parent_cardNode_reconcile {card : DeckCard α}
    (member : card ∈ (deck.reconcile nodes).cards)
    (own : (Board.ofNodes nodes).HasCardId card.slot.nodeId →
      (Board.ofNodes nodes).HasSlot card.slot) :
    ((deck.reconcile nodes).cardNode card).parent = card.position.parent := by
  have known : (deck.reconcile nodes).knownParent? card.position = card.position.parent := by
    obtain ⟨record, -, rfl⟩ := List.mem_map.mp member
    exact knownParent?_within (deck.reconcile nodes) record.position
  rw [cardNode, known]
  by_cases shown : (Board.ofNodes nodes).HasSlot card.slot
  · obtain ⟨node, present, isCard, id, position⟩ :=
      exists_node_of_hasSlot_of_ids slots ids member shown
    rw [← id, cardParent?_eq_parent rfl (Board.repaired_ofNodes nodes) present isCard, position]
    exact Option.or_self
  · have unlisted : (deck.reconcile nodes).Unlisted card :=
      unlisted_of_not_hasCardId fun listed => shown (own listed)
    have nowhere : (deck.reconcile nodes).cardParent? card.slot.nodeId = none := by
      rw [cardParent?, Option.map_eq_none_iff, List.find?_eq_none]
      exact fun zone inside listed => unlisted zone inside (List.contains_iff_mem.mp listed)
    rw [nowhere, Option.none_or]

end

/-- **Where a saved card lies.** The position of a card that the board shows names just the zone
that lists it. A card that the board does not show is kept in the zone where it was, as far as that
is there, and no zone lists it unless the node of another slot has its ID. -/
theorem membership_reconcile (deck : Deck α) (nodes : List (Node α))
    (slots : (deck.cards.map (·.slot)).Nodup)
    (ids : ∀ node ∈ nodes, ∀ slot ∈ node.slot?, node.id = slot.nodeId) :
    ∀ card ∈ (deck.reconcile nodes).cards,
      ((Board.ofNodes nodes).HasSlot card.slot → (deck.reconcile nodes).Agrees card) ∧
      (¬ (Board.ofNodes nodes).HasSlot card.slot → deck.KeptFrom (deck.reconcile nodes) card) ∧
      (¬ (Board.ofNodes nodes).HasCardId card.slot.nodeId →
        (deck.reconcile nodes).Unlisted card) := by
  intro card member
  exact ⟨agrees_of_hasSlot slots ids member, keptFrom_of_not_hasSlot slots member,
    unlisted_of_not_hasCardId⟩

/-- A deck with two cards in one zone. -/
def pairDeck : Deck Nat :=
  ⟨"d", "Pair",
    [⟨"bolt", 4, .main, .normal, none, ⟨10, 10, some "burn"⟩, []⟩,
      ⟨"shock", 2, .main, .normal, none, ⟨20, 10, some "burn"⟩, []⟩],
    [⟨"burn", "Burn", ⟨0, 0⟩, 300, 200, ["bolt", "shock"], []⟩], [], none⟩

/-- The board of that deck without the node of the second card. -/
def halfBoard : List (Node Nat) :=
  [⟨"burn", ⟨0, 0⟩, none, .group "Burn" 300 200⟩,
    ⟨"bolt", ⟨10, 10⟩, some "burn", .card "bolt" .main .normal none⟩]

theorem membership_reconcile_pairDeck :
    (pairDeck.cards.map (·.slot)).Nodup ∧
      (∀ node ∈ halfBoard, ∀ slot ∈ node.slot?, node.id = slot.nodeId) ∧
      ∀ card ∈ (pairDeck.reconcile halfBoard).cards,
        ((Board.ofNodes halfBoard).HasSlot card.slot →
          (pairDeck.reconcile halfBoard).Agrees card) ∧
        (¬ (Board.ofNodes halfBoard).HasSlot card.slot →
          pairDeck.KeptFrom (pairDeck.reconcile halfBoard) card) ∧
        (¬ (Board.ofNodes halfBoard).HasCardId card.slot.nodeId →
          (pairDeck.reconcile halfBoard).Unlisted card) :=
  ⟨by decide, by decide, membership_reconcile pairDeck halfBoard (by decide) (by decide)⟩

/-- The second card still names the zone, which does not list it any more. -/
theorem exists_not_agrees_pairDeck :
    (pairDeck.cards.map (·.slot)).Nodup ∧
      (∀ node ∈ halfBoard, ∀ slot ∈ node.slot?, node.id = slot.nodeId) ∧
      ∃ card ∈ (pairDeck.reconcile halfBoard).cards,
        ∃ zone ∈ (pairDeck.reconcile halfBoard).zones,
          card.position.parent = some zone.id ∧ card.slot.nodeId ∉ zone.cardChildren := by
  decide +kernel

end Deck

end DeckBuilder
