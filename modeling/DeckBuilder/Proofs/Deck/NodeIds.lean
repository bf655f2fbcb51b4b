import DeckBuilder.Proofs.Deck.RoundTrip
import DeckBuilder.Proofs.Text.Decimal

/-! # The IDs of nodes

The node of a card has the ID of the card, marked for the sideboard, and a phantom has the ID of the
node of its card with its number. Marks and numbers can always be read off the end of an ID again.
So two placements have the same node ID only when a card of the main deck bears an ID that ends like
that of another node, and a deck without such a card shows each of its placements by a node of its
own.
-/

namespace DeckBuilder

/-- A slot of the main deck shadows one of the sideboard when its card has the ID of that one's
node. -/
def Slot.Shadows (first second : Slot) : Prop :=
  first.part = .main ∧ second.part = .sideboard ∧ first.cardId = second.cardId ++ "_side"

/-- What tells the placements of a deck apart: the slot, and the number of a phantom. -/
inductive PlacementKey where
  | card (slot : Slot)
  | phantom (slot : Slot) (index : Nat)
deriving DecidableEq

namespace PlacementKey

def nodeId : PlacementKey → String
  | card slot => slot.nodeId
  | phantom slot index => phantomNodeId slot.nodeId index

def slot : PlacementKey → Slot
  | card slot | phantom slot _ => slot

/-- A placement shadows another one when it comes from a card of the main deck whose ID makes it
look like the other. -/
def Shadows : PlacementKey → PlacementKey → Prop
  | card first, card second => first.Shadows second
  | card first, phantom second index =>
    first.part = .main ∧ first.cardId = phantomNodeId second.nodeId index
  | phantom first i, phantom second j => first.Shadows second ∧ i = j
  | phantom _ _, card _ => False

end PlacementKey

/-! ## Reading IDs from their ends -/

theorem toList_phantomNodeId (node : String) (index : Nat) :
    (phantomNodeId node index).toList =
      (node ++ "_phantom").toList ++ '_' :: Text.numeral index := by
  simp [phantomNodeId, decimal, String.toList_append]

theorem underscore_not_mem_numeral (index : Nat) : '_' ∉ Text.numeral index :=
  Text.not_mem_numeral (by decide) index

/-- The ID of a phantom tells the node of its card and its number. -/
theorem phantomNodeId_inj {first second : String} {i j : Nat} :
    phantomNodeId first i = phantomNodeId second j ↔ first = second ∧ i = j := by
  constructor
  · intro same
    have chars := congrArg String.toList same
    rw [toList_phantomNodeId, toList_phantomNodeId] at chars
    obtain ⟨nodes, numbers⟩ :=
      Lists.append_cons_inj chars (underscore_not_mem_numeral i) (underscore_not_mem_numeral j)
    rw [String.toList_append, String.toList_append] at nodes
    exact ⟨String.toList_inj.mp (List.append_cancel_right nodes), Text.numeral_inj.mp numbers⟩
  · rintro ⟨rfl, rfl⟩
    rfl

/-- The node of a sideboard card has no number at its end. -/
theorem nodeId_ne_phantomNodeId {slot : Slot} (side : slot.part = .sideboard) (node : String)
    (index : Nat) : slot.nodeId ≠ phantomNodeId node index := by
  intro same
  have chars : slot.cardId.toList ++ '_' :: "side".toList =
      (node ++ "_phantom").toList ++ '_' :: Text.numeral index := by
    rw [← toList_phantomNodeId, ← same, Slot.nodeId, side, String.toList_append]
    rfl
  obtain ⟨-, numbers⟩ :=
    Lists.append_cons_inj chars (by decide) (underscore_not_mem_numeral index)
  have read := Text.natural?_numeral index
  rw [← numbers] at read
  cases read

theorem nodeId_eq_phantomNodeId_iff {slot : Slot} {node : String} {index : Nat} :
    slot.nodeId = phantomNodeId node index ↔
      slot.part = .main ∧ slot.cardId = phantomNodeId node index := by
  cases part : slot.part with
  | main => simp [Slot.nodeId, part]
  | sideboard => simp [nodeId_ne_phantomNodeId part]

/-- Slots of one part have different nodes, since the mark can be taken off again. -/
theorem Slot.nodeId_eq_iff {first second : Slot} :
    first.nodeId = second.nodeId ↔
      first = second ∨ first.Shadows second ∨ second.Shadows first := by
  obtain ⟨firstId, firstPart⟩ := first
  obtain ⟨secondId, secondPart⟩ := second
  have unmarked : firstId ++ "_side" = secondId ++ "_side" ↔ firstId = secondId := by
    rw [← String.toList_inj, String.toList_append, String.toList_append, List.append_left_inj,
      String.toList_inj]
  cases firstPart <;> cases secondPart <;> simp [Slot.nodeId, Slot.Shadows, unmarked, eq_comm]

/-- **Which placements have the same node ID**: only one that shadows the other. -/
theorem PlacementKey.nodeId_eq_iff {first second : PlacementKey} :
    first.nodeId = second.nodeId ↔
      first = second ∨ first.Shadows second ∨ second.Shadows first := by
  cases first with
  | card first =>
    cases second with
    | card second => simp [nodeId, Shadows, Slot.nodeId_eq_iff]
    | phantom second index => simp [nodeId, Shadows, nodeId_eq_phantomNodeId_iff]
  | phantom first i =>
    cases second with
    | card second =>
      rw [eq_comm]
      simp [nodeId, Shadows, nodeId_eq_phantomNodeId_iff]
    | phantom second j =>
      simp only [nodeId, Shadows, phantomNodeId_inj, Slot.nodeId_eq_iff, phantom.injEq]
      grind

theorem PlacementKey.not_shadows_self (key : PlacementKey) : ¬ key.Shadows key := by
  have slots (slot : Slot) : ¬ slot.Shadows slot := by
    rintro ⟨isMain, isSide, -⟩
    rw [isMain] at isSide
    cases isSide
  cases key with
  | card slot => exact slots slot
  | phantom slot index => exact fun shadows => slots slot shadows.1

/-! ## The placements of a deck -/

variable {α : Type}

/-- Nodes are cards, phantoms and groups. -/
theorem Node.kinds_perm (nodes : List (Node α)) :
    (nodes.filter (·.isCard) ++ nodes.filter (·.isPhantom) ++ nodes.filter (·.isGroup)).Perm
      nodes := by
  induction nodes with
  | nil => exact .nil
  | cons node rest ih =>
    cases data : node.data with
    | card => simpa [isCard, isPhantom, isGroup, data] using ih
    | phantom =>
      rw [List.append_assoc] at ih
      simpa [isCard, isPhantom, isGroup, data] using List.perm_middle.trans (ih.cons node)
    | group =>
      simpa [isCard, isPhantom, isGroup, data] using List.perm_middle.trans (ih.cons node)

namespace Deck

/-- The placements of a deck, in the order in which their nodes are made. -/
def placementKeys (deck : Deck α) : List PlacementKey :=
  deck.cards.flatMap fun card =>
    (List.range card.phantoms.length).map (.phantom card.slot) ++ [.card card.slot]

/-- Some card of the main deck is named like the node of a sideboard card or of a phantom. -/
def HasShadow (deck : Deck α) : Prop :=
  ∃ card ∈ deck.cards, card.part = .main ∧ ∃ other ∈ deck.cards,
    (other.part = .sideboard ∧ card.cardId = other.cardId ++ "_side") ∨
      ∃ index < other.phantoms.length, card.cardId = phantomNodeId other.slot.nodeId index

/-- Each card is shown by one card node and each phantom by one phantom node, with all that there is
to them, and nothing else is shown. -/
structure ShowsEach (deck : Deck α) (nodes : List (Node α)) : Prop where
  cards : (nodes.filter (·.isCard)).Perm (deck.cards.map fun card =>
    ⟨card.slot.nodeId, card.position.point, none,
      .card card.cardId card.part card.role card.version⟩)
  phantoms : (nodes.filter (·.isPhantom)).Perm (deck.cards.flatMap fun card =>
    card.phantoms.zipIdx.map fun entry =>
      ⟨phantomNodeId card.slot.nodeId entry.2, entry.1.point, none,
        .phantom card.slot.nodeId entry.2⟩)
  groups : nodes.filter (·.isGroup) = []

variable {deck : Deck α}

theorem mem_placementKeys {key : PlacementKey} :
    key ∈ deck.placementKeys ↔ ∃ card ∈ deck.cards,
      (∃ index < card.phantoms.length, key = .phantom card.slot index) ∨
        key = .card card.slot := by
  simp only [placementKeys, List.mem_flatMap, List.mem_append, List.mem_map, List.mem_range,
    List.mem_singleton, eq_comm]

theorem nodup_placementKeys (slots : (deck.cards.map (·.slot)).Nodup) :
    deck.placementKeys.Nodup := by
  refine Lists.nodup_flatMap_of_key PlacementKey.slot slots ?_ ?_
  · intro card _
    have numbers : ((List.range card.phantoms.length).map (PlacementKey.phantom card.slot)).Nodup :=
      List.nodup_range.map fun _ _ same => (PlacementKey.phantom.inj same).2
    simp [List.nodup_append, numbers]
  · intro card _ key made
    rcases List.mem_append.mp made with phantom | here
    · obtain ⟨index, -, rfl⟩ := List.mem_map.mp phantom
      rfl
    · rw [List.mem_singleton.mp here]
      rfl

theorem hasShadow_iff :
    deck.HasShadow ↔
      ∃ first ∈ deck.placementKeys, ∃ second ∈ deck.placementKeys, first.Shadows second := by
  constructor
  · rintro ⟨card, present, isMain, other, alsoPresent, ⟨isSide, named⟩ | ⟨index, inside, named⟩⟩
    · exact ⟨.card card.slot, mem_placementKeys.mpr ⟨card, present, .inr rfl⟩,
        .card other.slot, mem_placementKeys.mpr ⟨other, alsoPresent, .inr rfl⟩,
        isMain, isSide, named⟩
    · exact ⟨.card card.slot, mem_placementKeys.mpr ⟨card, present, .inr rfl⟩,
        .phantom other.slot index,
        mem_placementKeys.mpr ⟨other, alsoPresent, .inl ⟨index, inside, rfl⟩⟩, isMain, named⟩
  · rintro ⟨first, left, second, right, shadows⟩
    obtain ⟨card, present, made⟩ := mem_placementKeys.mp left
    obtain ⟨other, alsoPresent, alsoMade⟩ := mem_placementKeys.mp right
    -- A card or a phantom that shadows one of its kind does so by its slot.
    have bySlot (shadows : card.slot.Shadows other.slot) : deck.HasShadow := by
      obtain ⟨isMain, isSide, named⟩ := shadows
      exact ⟨card, present, isMain, other, alsoPresent, .inl ⟨isSide, named⟩⟩
    rcases made with ⟨i, -, rfl⟩ | rfl
    · rcases alsoMade with ⟨j, -, rfl⟩ | rfl
      · exact bySlot shadows.1
      · exact shadows.elim
    · rcases alsoMade with ⟨index, inside, rfl⟩ | rfl
      · exact ⟨card, present, shadows.1, other, alsoPresent, .inr ⟨index, inside, shadows.2⟩⟩
      · exact bySlot shadows

section

variable (noZones : deck.zones = [])

include noZones

theorem map_nodeId_placementKeys : deck.placementKeys.map (·.nodeId) = deck.nodeIds := by
  rw [nodeIds, noZones, placementKeys, List.map_flatMap]
  simp [Function.comp_def, PlacementKey.nodeId]

/-- The nodes of a deck have different IDs exactly when no placement shadows another one. -/
theorem nodup_nodeIds_iff (slots : (deck.cards.map (·.slot)).Nodup) :
    deck.nodeIds.Nodup ↔ ¬ deck.HasShadow := by
  rw [← map_nodeId_placementKeys noZones, List.nodup_map_iff_inj_on (nodup_placementKeys slots),
    hasShadow_iff]
  constructor
  · rintro injective ⟨first, left, second, right, shadows⟩
    have same := PlacementKey.nodeId_eq_iff.mpr (.inr (.inl shadows))
    rw [injective first left second right same] at shadows
    exact second.not_shadows_self shadows
  · intro none first left second right same
    rcases PlacementKey.nodeId_eq_iff.mp same with equal | shadows | shadows
    · exact equal
    · exact (none ⟨first, left, second, right, shadows⟩).elim
    · exact (none ⟨second, right, first, left, shadows⟩).elim

theorem knownParent?_of_noZones (position : Position α) : deck.knownParent? position = none := by
  simp [knownParent?, Option.filter_eq_none_iff, namesZone, noZones]

theorem cardNode_of_noZones (card : DeckCard α) : deck.cardNode card =
    ⟨card.slot.nodeId, card.position.point, none,
      .card card.cardId card.part card.role card.version⟩ := by
  rw [cardNode, knownParent?_of_noZones noZones, cardParent?, noZones]
  rfl

theorem phantomNode_of_noZones (node : String) (phantom : Position α) (index : Nat) :
    deck.phantomNode node phantom index =
      ⟨phantomNodeId node index, phantom.point, none, .phantom node index⟩ := by
  rw [phantomNode, knownParent?_of_noZones noZones]

theorem rawNodes_of_noZones : deck.rawNodes = deck.cards.flatMap deck.nodesOfCard := by
  rw [rawNodes, noZones, List.map_nil, List.nil_append]

theorem filter_isCard_rawNodes : deck.rawNodes.filter (·.isCard) =
    deck.cards.map fun card => ⟨card.slot.nodeId, card.position.point, none,
      .card card.cardId card.part card.role card.version⟩ := by
  have each (card : DeckCard α) :
      (deck.nodesOfCard card).filter (·.isCard) = [deck.cardNode card] := by
    simp [nodesOfCard, List.filter_map, Function.comp_def, Node.isCard, phantomNode, cardNode]
  rw [rawNodes_of_noZones noZones, List.filter_flatMap, List.map_eq_flatMap]
  simp only [each, cardNode_of_noZones noZones]

theorem filter_isPhantom_rawNodes : deck.rawNodes.filter (·.isPhantom) =
    deck.cards.flatMap fun card => card.phantoms.zipIdx.map fun entry =>
      ⟨phantomNodeId card.slot.nodeId entry.2, entry.1.point, none,
        .phantom card.slot.nodeId entry.2⟩ := by
  have each (card : DeckCard α) : (deck.nodesOfCard card).filter (·.isPhantom) =
      card.phantoms.zipIdx.map fun entry =>
        deck.phantomNode card.slot.nodeId entry.1 entry.2 := by
    simp [nodesOfCard, List.filter_map, Function.comp_def, Node.isPhantom, phantomNode, cardNode]
  rw [rawNodes_of_noZones noZones, List.filter_flatMap]
  simp only [each, phantomNode_of_noZones noZones]

theorem filter_isGroup_rawNodes : deck.rawNodes.filter (·.isGroup) = [] := by
  rw [rawNodes_of_noZones noZones, List.filter_eq_nil_iff]
  intro node made
  obtain ⟨card, -, isOf⟩ := List.mem_flatMap.mp made
  exact not_isGroup_of_mem_nodesOfCard isOf

theorem showsEach_iff_perm {nodes : List (Node α)} :
    deck.ShowsEach nodes ↔ nodes.Perm deck.rawNodes := by
  constructor
  · rintro ⟨cards, phantoms, groups⟩
    rw [← filter_isCard_rawNodes noZones] at cards
    rw [← filter_isPhantom_rawNodes noZones] at phantoms
    rw [← filter_isGroup_rawNodes noZones] at groups
    exact (Node.kinds_perm nodes).symm.trans
      (((cards.append phantoms).append (.of_eq groups)).trans (Node.kinds_perm deck.rawNodes))
  · intro perm
    refine ⟨?_, ?_, ?_⟩
    · exact filter_isCard_rawNodes noZones ▸ perm.filter _
    · exact filter_isPhantom_rawNodes noZones ▸ perm.filter _
    · exact List.perm_nil.mp (filter_isGroup_rawNodes noZones ▸ perm.filter _)

theorem toNodes_perm_rawNodes_iff : deck.toNodes.Perm deck.rawNodes ↔ deck.nodeIds.Nodup := by
  constructor
  · intro perm
    rw [← map_id_rawNodes]
    exact (perm.map (·.id)).nodup_iff.mp deck.repaired_toNodes.distinct
  · intro distinct
    obtain ⟨change, -, built⟩ := exists_ofNodes_rawNodes_eq distinct
    refine deck.toNodes_perm.trans (.of_eq ?_)
    rw [built, rawNodes, noZones, List.map_nil, List.map_nil]

end

instance (deck : Deck α) : Decidable deck.HasShadow :=
  inferInstanceAs (Decidable (∃ card ∈ deck.cards, _))

/-- **A deck shows each placement by a node of its own exactly when no card shadows another.** This
is for decks without zones and with distinct slots. Whatever the deck, two placements have the same
node ID only when they are the same or one shadows the other. -/
theorem showsEach_toNodes_iff (deck : Deck α) (noZones : deck.zones = [])
    (slots : (deck.cards.map (·.slot)).Nodup) :
    (deck.ShowsEach deck.toNodes ↔ ¬ deck.HasShadow) ∧
      ∀ first second : PlacementKey, first.nodeId = second.nodeId ↔
        first = second ∨ first.Shadows second ∨ second.Shadows first := by
  refine ⟨?_, fun first second => PlacementKey.nodeId_eq_iff⟩
  rw [showsEach_iff_perm noZones, toNodes_perm_rawNodes_iff noZones,
    nodup_nodeIds_iff noZones slots]

/-- A deck with phantoms on both sides, and with a card whose ID begins like the ID of a phantom. -/
def phantomDeck : Deck Nat :=
  ⟨"d", "Phantoms",
    [⟨"shock", 3, .main, .commander, some "2xm", ⟨1, 2, none⟩, [⟨3, 4, none⟩, ⟨5, 6, none⟩]⟩,
      ⟨"shock", 2, .sideboard, .normal, none, ⟨7, 8, some "gone"⟩, [⟨9, 10, none⟩]⟩,
      ⟨"shock_phantom_1_side", 1, .main, .normal, none, ⟨11, 12, none⟩, []⟩],
    [], [], none⟩

theorem showsEach_toNodes_phantomDeck :
    phantomDeck.zones = [] ∧ (phantomDeck.cards.map (·.slot)).Nodup ∧ ¬ phantomDeck.HasShadow ∧
      phantomDeck.ShowsEach phantomDeck.toNodes := by
  have slots : (phantomDeck.cards.map (·.slot)).Nodup := by decide
  have none : ¬ phantomDeck.HasShadow := by decide
  exact ⟨rfl, slots, none, (showsEach_toNodes_iff phantomDeck rfl slots).1.mpr none⟩

/-- A card of the main deck that has the ID of the node of a sideboard card. -/
def shadowedDeck : Deck Nat :=
  ⟨"d", "Shadow",
    [⟨"bolt_side", 1, .main, .normal, none, ⟨0, 0, none⟩, []⟩,
      ⟨"bolt", 1, .sideboard, .normal, none, ⟨100, 0, none⟩, []⟩],
    [], [], none⟩

/-- The sideboard card has no node. -/
theorem not_showsEach_toNodes_shadowedDeck :
    shadowedDeck.zones = [] ∧ (shadowedDeck.cards.map (·.slot)).Nodup ∧
      shadowedDeck.toNodes =
        [⟨"bolt_side", ⟨0, 0⟩, none, .card "bolt_side" .main .normal none⟩] ∧
      ¬ shadowedDeck.ShowsEach shadowedDeck.toNodes := by
  have shown : shadowedDeck.toNodes =
      [⟨"bolt_side", ⟨0, 0⟩, none, .card "bolt_side" .main .normal none⟩] := by
    decide +kernel
  refine ⟨rfl, by decide, shown, fun each => ?_⟩
  have length := each.cards.length_eq
  rw [shown] at length
  cases length

end Deck

end DeckBuilder
