import DeckBuilder.Proofs.Board.Nesting
import DeckBuilder.Proofs.Deck.Merge
import DeckBuilder.Proofs.Deck.Zones

/-! # Saving and reopening a board

A board whose nodes carry the IDs of a deck is saved into the deck and comes back when the deck is
opened: groups by way of the zones, cards by way of their slots, and the phantoms of each card by
way of their order.
-/

namespace DeckBuilder

variable {α : Type}

namespace Node

/-- The version that a card node shows. -/
def version? (node : Node α) : Option String :=
  match node.data with
  | .card _ _ _ version => version
  | _ => none

/-- The ID of the card that a phantom belongs to. Other nodes belong to themselves. -/
def owner (node : Node α) : String :=
  match node.data with
  | .phantom owner _ => owner
  | _ => node.id

/-- Nodes have the IDs that a deck gives them, and the phantoms of a card are numbered from zero. -/
structure Canonical (nodes : List (Node α)) : Prop where
  cardIds : ∀ node ∈ nodes, ∀ slot, node.slot? = some slot → node.id = slot.nodeId
  phantomIds : ∀ node ∈ nodes, ∀ owner index, node.data = .phantom owner index →
    node.id = phantomNodeId owner index
  numbered : ∀ card ∈ nodes, card.isCard → ∃ count, ∀ index,
    (∃ node ∈ nodes, node.data = .phantom card.id index) ↔ index < count

theorem phantomIndex?_eq_some_iff {node : Node α} {owner : String} {index : Nat} :
    node.phantomIndex? owner = some index ↔ node.data = .phantom owner index := by
  cases data : node.data with
  | card | group => simp [phantomIndex?, data]
  | phantom cardNode place =>
    by_cases same : cardNode = owner <;> simp [phantomIndex?, data, same]

/-- The number of a phantom of a card node. -/
def number (owner : String) (node : Node α) : Nat :=
  (node.phantomIndex? owner).getD 0

theorem number_eq {node : Node α} {owner : String} {index : Nat}
    (data : node.data = .phantom owner index) : node.number owner = index := by
  rw [number, phantomIndex?_eq_some_iff.mpr data, Option.getD_some]

theorem not_isGroup_of_slot? {node : Node α} {slot : Slot} (named : node.slot? = some slot) :
    ¬ node.isGroup := by
  cases data : node.data <;> simp_all [slot?, isGroup]

theorem isCard_of_slot? {node : Node α} {slot : Slot} (named : node.slot? = some slot) :
    node.isCard := by
  cases data : node.data <;> simp_all [slot?, isCard]

theorem exists_slot? {node : Node α} (isCard : node.isCard) : ∃ slot, node.slot? = some slot := by
  cases data : node.data <;> simp_all [slot?, Node.isCard]

end Node

namespace Board

theorem mem_sortedPhantoms {board : Board α} {owner : String} {node : Node α} :
    node ∈ board.sortedPhantoms owner ↔
      node ∈ board.nodes ∧ ∃ index, node.data = .phantom owner index := by
  rw [(board.phantomOrder_sortedPhantoms owner).perm.mem_iff, List.mem_filter,
    Option.isSome_iff_exists]
  simp only [Node.phantomIndex?_eq_some_iff]

theorem nodup_sortedPhantoms {board : Board α} (distinct : (board.nodes.map (·.id)).Nodup)
    (owner : String) : (board.sortedPhantoms owner).Nodup :=
  (board.phantomOrder_sortedPhantoms owner).perm.nodup_iff.mpr
    ((List.Nodup.of_map _ distinct).filter _)

/-- Phantoms that are numbered from zero are listed by their numbers. -/
theorem map_number_sortedPhantoms {board : Board α} (distinct : (board.nodes.map (·.id)).Nodup)
    (canonical : Node.Canonical board.nodes) {owner : String} {count : Nat}
    (numbered : ∀ index, (∃ node ∈ board.nodes, node.data = .phantom owner index) ↔ index < count) :
    (board.sortedPhantoms owner).map (·.number owner) = List.range count := by
  have apart : ((board.sortedPhantoms owner).map (·.number owner)).Nodup := by
    refine (nodup_sortedPhantoms distinct owner).map_on fun first left second right same => ?_
    obtain ⟨inside, i, data⟩ := mem_sortedPhantoms.mp left
    obtain ⟨alsoInside, j, alsoData⟩ := mem_sortedPhantoms.mp right
    rw [Node.number_eq data, Node.number_eq alsoData] at same
    refine Node.eq_of_id_eq distinct inside alsoInside ?_
    rw [canonical.phantomIds first inside _ _ data,
      canonical.phantomIds second alsoInside _ _ alsoData, same]
  have perm : ((board.sortedPhantoms owner).map (·.number owner)).Perm (List.range count) := by
    refine (List.perm_ext_iff_of_nodup apart List.nodup_range).mpr fun index => ?_
    rw [List.mem_map, List.mem_range, ← numbered]
    constructor
    · intro numberOf
      obtain ⟨phantom, listed, rfl⟩ := numberOf
      obtain ⟨inside, index, data⟩ := mem_sortedPhantoms.mp listed
      exact ⟨phantom, inside, by rw [Node.number_eq data, data]⟩
    · intro numberOf
      obtain ⟨phantom, inside, data⟩ := numberOf
      exact ⟨phantom, mem_sortedPhantoms.mpr ⟨inside, index, data⟩, Node.number_eq data⟩
  have sorted : ((board.sortedPhantoms owner).map (·.number owner)).Pairwise (· ≤ ·) := by
    have order := (board.phantomOrder_sortedPhantoms owner).sorted
    refine List.pairwise_map.mpr (order.imp_of_mem fun left right below => ?_)
    obtain ⟨-, i, data⟩ := mem_sortedPhantoms.mp left
    obtain ⟨-, j, alsoData⟩ := mem_sortedPhantoms.mp right
    rw [Node.number_eq data, Node.number_eq alsoData]
    exact below i j (Node.phantomIndex?_eq_some_iff.mpr data)
      (Node.phantomIndex?_eq_some_iff.mpr alsoData)
  exact perm.eq_of_pairwise (fun _ _ _ _ => Nat.le_antisymm) sorted List.pairwise_le_range

theorem data_of_getElem?_sortedPhantoms {board : Board α} {owner : String} {count : Nat}
    (numbers : (board.sortedPhantoms owner).map (·.number owner) = List.range count) {place : Nat}
    {node : Node α} (found : (board.sortedPhantoms owner)[place]? = some node) :
    node.data = .phantom owner place := by
  obtain ⟨-, index, data⟩ := mem_sortedPhantoms.mp (List.mem_of_getElem? found)
  have here : ((board.sortedPhantoms owner).map (·.number owner))[place]? = some index := by
    rw [List.getElem?_map, found, Option.map_some, Node.number_eq data]
  rw [numbers, List.getElem?_eq_some_iff] at here
  obtain ⟨bound, same⟩ := here
  rw [data, ← same, List.getElem_range]

theorem mem_of_firstNode? {board : Board α} {slot : Slot} {node : Node α}
    (first : board.firstNode? slot = some node) :
    node ∈ board.nodes ∧ node.slot? = some slot :=
  ⟨List.mem_of_find?_eq_some first, by simpa using List.find?_some first⟩

theorem exists_firstNode? {board : Board α} {slot : Slot} {node : Node α}
    (member : node ∈ board.nodes) (named : node.slot? = some slot) :
    ∃ first, board.firstNode? slot = some first := by
  rw [← Option.isSome_iff_exists, firstNode?, List.find?_isSome]
  exact ⟨node, member, beq_iff_eq.mpr named⟩

theorem eq_of_slot? {board : Board α} (distinct : (board.nodes.map (·.id)).Nodup)
    (canonical : Node.Canonical board.nodes) {slot : Slot} {first second : Node α}
    (left : first ∈ board.nodes) (right : second ∈ board.nodes)
    (named : first.slot? = some slot) (alsoNamed : second.slot? = some slot) : first = second := by
  refine Node.eq_of_id_eq distinct left right ?_
  rw [canonical.cardIds first left slot named, canonical.cardIds second right slot alsoNamed]

/-- The record of a node has its placements on the board, and those stay as they are. -/
theorem within_of_deckCard? {board : Board α} (repaired : Node.Repaired board.nodes)
    {previous : List (DeckCard α)} {node : Node α} (member : node ∈ board.nodes)
    {card : DeckCard α} (shown : board.deckCard? previous node = some card) :
    card.within board.toZones = card := by
  have stays {other : Node α} (inside : other ∈ board.nodes) :
      other.placement.within board.toZones = other.placement := by
    rw [Position.within]
    exact congrArg (Position.mk other.position.x other.position.y)
      (filter_any_toZones repaired inside)
  cases data : node.data with
  | phantom | group => simp [deckCard?, data] at shown
  | card cardId part role version =>
    simp only [deckCard?, data, Option.some.injEq] at shown
    subst shown
    rw [DeckCard.within, stays member, phantomsOf_eq, List.map_map]
    refine congrArg (DeckCard.mk _ _ _ _ _ _) (List.map_congr_left fun phantom listed => ?_)
    exact stays (mem_sortedPhantoms.mp listed).1

end Board

namespace Deck

theorem owner_of_mem_nodesOfCard {deck : Deck α} {card : DeckCard α} {node : Node α}
    (listed : node ∈ deck.nodesOfCard card) : node.owner = card.slot.nodeId := by
  unfold nodesOfCard at listed
  rw [List.mem_append, List.mem_map, List.mem_singleton] at listed
  rcases listed with ⟨entry, -, rfl⟩ | rfl <;> rfl

/-- A slot of the deck comes back as its phantoms and its node. -/
theorem nodesOfCard_eq {deck : Deck α} {board : Board α} (zones : deck.zones = board.toZones)
    (repaired : Node.Repaired board.nodes) (canonical : Node.Canonical board.nodes)
    {previous : List (DeckCard α)} {node : Node α} (member : node ∈ board.nodes)
    {card : DeckCard α} (shown : board.deckCard? previous node = some card)
    (version : node.version? = none → card.version = none) :
    deck.nodesOfCard card = board.sortedPhantoms node.id ++ [node] := by
  cases data : node.data with
  | phantom | group => simp [Board.deckCard?, data] at shown
  | card cardId part role printing =>
    simp only [Board.deckCard?, data, Option.some.injEq] at shown
    have isCard : node.isCard := by simp only [Node.isCard, data]
    have id : node.id = card.slot.nodeId :=
      canonical.cardIds node member card.slot (by simp only [Node.slot?, data, ← shown]; rfl)
    have phantoms : (card.phantoms.zipIdx.map fun entry =>
        deck.phantomNode card.slot.nodeId entry.1 entry.2) = board.sortedPhantoms node.id := by
      rw [show card.phantoms = (board.sortedPhantoms node.id).map (·.placement) by
        rw [← Board.phantomsOf_eq, ← shown]]
      obtain ⟨count, numbered⟩ := canonical.numbered node member isCard
      have numbers := Board.map_number_sortedPhantoms repaired.distinct canonical numbered
      apply Lists.map_zipIdx_map
      intro place phantom found
      have inside := (Board.mem_sortedPhantoms.mp (List.mem_of_getElem? found)).1
      have numbered := Board.data_of_getElem?_sortedPhantoms numbers found
      simp only [phantomNode, ← id, knownParent?_eq_parent zones repaired inside, ← numbered,
        ← canonical.phantomIds phantom inside _ _ numbered]
      rfl
    have printed : card.version = printing := by
      cases known : printing with
      | some version => rw [← shown, known, Option.some_or]
      | none => exact version (by simp only [Node.version?, data, known])
    have parent : (deck.cardParent? card.slot.nodeId).or (deck.knownParent? card.position) =
        node.parent := by
      have position : card.position = node.placement := by rw [← shown]
      rw [← id, cardParent?_eq_parent zones repaired member isCard, position,
        knownParent?_eq_parent zones repaired member, Option.or_self]
    have itself : deck.cardNode card = node := by
      rw [cardNode, parent, printed, ← id, ← shown]
      simp only [← data]
      rfl
    unfold nodesOfCard
    rw [phantoms, itself]

/-- Every slot of a deck is on the board, with the version that the deck knows if any. -/
structure OnBoard (deck : Deck α) (nodes : List (Node α)) : Prop where
  slots : (deck.cards.map (·.slot)).Nodup
  placed : ∀ card ∈ deck.cards, ∃ node ∈ nodes, node.slot? = some card.slot
  versions : ∀ card ∈ deck.cards, ∀ node ∈ nodes, node.slot? = some card.slot →
    node.version? = none → card.version = none

section

variable {deck : Deck α} {nodes : List (Node α)}

/-- The groups of the board come back from the zones, in their order. -/
theorem map_zoneNode_reconcile :
    (deck.reconcile nodes).zones.map (deck.reconcile nodes).zoneNode =
      (Board.ofNodes nodes).nodes.filter (·.isGroup) :=
  map_zoneNode_toZones rfl (Board.repaired_ofNodes nodes)

section

variable (onBoard : deck.OnBoard (Board.ofNodes nodes).nodes)

include onBoard

theorem exists_node_toDeckCards {card : DeckCard α}
    (member : card ∈ (Board.ofNodes nodes).toDeckCards deck.cards) :
    ∃ node ∈ (Board.ofNodes nodes).nodes, node.slot? = some card.slot ∧
      (Board.ofNodes nodes).deckCard? deck.cards node = some card ∧
      (node.version? = none → card.version = none) := by
  rcases Board.mem_toDeckCards _ onBoard.slots member with
    ⟨node, first, shown⟩ | ⟨unplaced, present⟩
  · obtain ⟨inside, named⟩ := Board.mem_of_firstNode? first
    refine ⟨node, inside, named, shown, fun unversioned => ?_⟩
    obtain ⟨⟨⟨version, data, versions⟩, -, -⟩, -⟩ :=
      Board.shows_of_deckCard? _ onBoard.slots shown
    have none : version = none := by simpa only [Node.version?, data] using unversioned
    rw [versions, none, Option.none_or]
    cases found : deck.cards.find? (·.slot == card.slot) with
    | none => rfl
    | some prior =>
      have same : prior.slot = card.slot := by simpa using List.find?_some found
      rw [Option.bind_some]
      exact onBoard.versions prior (List.mem_of_find?_eq_some found) node inside
        (same ▸ named) unversioned
  · obtain ⟨node, inside, named⟩ := onBoard.placed card present
    obtain ⟨first, found⟩ := Board.exists_firstNode? inside named
    rw [unplaced] at found
    cases found

theorem cards_reconcile :
    (deck.reconcile nodes).cards = (Board.ofNodes nodes).toDeckCards deck.cards := by
  refine (List.map_congr_left fun card member => ?_).trans (List.map_id _)
  obtain ⟨node, inside, -, shown, -⟩ := exists_node_toDeckCards onBoard member
  exact Board.within_of_deckCard? (Board.repaired_ofNodes nodes) inside shown

theorem nodup_slot_reconcile : ((deck.reconcile nodes).cards.map (·.slot)).Nodup := by
  rw [cards_reconcile onBoard]
  exact Board.nodup_slot_toDeckCards _ onBoard.slots

/-- Every card node of the board has its slot in the saved deck. -/
theorem exists_card_reconcile {node : Node α} (member : node ∈ (Board.ofNodes nodes).nodes)
    {slot : Slot} (named : node.slot? = some slot) :
    ∃ card ∈ (deck.reconcile nodes).cards, card.slot = slot := by
  rw [cards_reconcile onBoard]
  exact List.mem_map.mp (Board.slot_mem_toDeckCards _ onBoard.slots member named)

variable (canonical : Node.Canonical (Board.ofNodes nodes).nodes)

include canonical

/-- A slot of the saved deck comes back as the phantoms and the node that it has on the board. -/
theorem exists_nodesOfCard_reconcile {card : DeckCard α}
    (member : card ∈ (deck.reconcile nodes).cards) :
    ∃ node ∈ (Board.ofNodes nodes).nodes, node.slot? = some card.slot ∧
      (deck.reconcile nodes).nodesOfCard card =
        (Board.ofNodes nodes).sortedPhantoms node.id ++ [node] := by
  rw [cards_reconcile onBoard] at member
  obtain ⟨node, inside, named, shown, version⟩ := exists_node_toDeckCards onBoard member
  exact ⟨node, inside, named,
    nodesOfCard_eq rfl (Board.repaired_ofNodes nodes) canonical inside shown version⟩

/-- The slots of the saved deck have different node IDs. -/
theorem nodup_nodeId_reconcile :
    ((deck.reconcile nodes).cards.map (·.slot.nodeId)).Nodup := by
  have slots := nodup_slot_reconcile onBoard
  refine (List.Nodup.of_map _ slots).map_on fun first left second right same => ?_
  obtain ⟨node, inside, named, -⟩ := exists_nodesOfCard_reconcile onBoard canonical left
  obtain ⟨other, alsoInside, alsoNamed, -⟩ :=
    exists_nodesOfCard_reconcile onBoard canonical right
  have sameNode : node = other := by
    refine Node.eq_of_id_eq (Board.keyed_ofNodes nodes).distinct inside alsoInside ?_
    rw [canonical.cardIds node inside _ named, canonical.cardIds other alsoInside _ alsoNamed]
    exact same
  rw [sameNode, alsoNamed] at named
  exact List.inj_on_of_nodup_map slots left right (Option.some.inj named).symm

/-- Cards and phantoms come back from the slots. -/
theorem mem_flatMap_nodesOfCard_reconcile {node : Node α} :
    node ∈ (deck.reconcile nodes).cards.flatMap (deck.reconcile nodes).nodesOfCard ↔
      node ∈ (Board.ofNodes nodes).nodes ∧ ¬ node.isGroup := by
  have repaired := Board.repaired_ofNodes nodes
  rw [List.mem_flatMap]
  constructor
  · intro made
    obtain ⟨card, member, listed⟩ := made
    obtain ⟨first, inside, named, parts⟩ := exists_nodesOfCard_reconcile onBoard canonical member
    rw [parts, List.mem_append, List.mem_singleton] at listed
    rcases listed with isPhantom | rfl
    · obtain ⟨present, index, data⟩ := Board.mem_sortedPhantoms.mp isPhantom
      exact ⟨present, by simp [Node.isGroup, data]⟩
    · exact ⟨inside, by simp [Node.not_isGroup_of_slot? named]⟩
  · intro other
    obtain ⟨member, noGroup⟩ := other
    -- The card that the node is, or that it is a phantom of, has a slot, and the slot a record.
    have saved {card : Node α} (inside : card ∈ (Board.ofNodes nodes).nodes)
        (isCard : card.isCard) : ∃ record ∈ (deck.reconcile nodes).cards,
          (deck.reconcile nodes).nodesOfCard record =
            (Board.ofNodes nodes).sortedPhantoms card.id ++ [card] := by
      obtain ⟨slot, named⟩ := Node.exists_slot? isCard
      obtain ⟨record, present, rfl⟩ := exists_card_reconcile onBoard inside named
      obtain ⟨other, alsoInside, alsoNamed, parts⟩ :=
        exists_nodesOfCard_reconcile onBoard canonical present
      rw [Board.eq_of_slot? repaired.distinct canonical alsoInside inside alsoNamed named] at parts
      exact ⟨record, present, parts⟩
    cases data : node.data with
    | group => simp [Node.isGroup, data] at noGroup
    | card cardId part role version =>
      obtain ⟨record, present, parts⟩ := saved member (by simp [Node.isCard, data])
      exact ⟨record, present, by simp [parts]⟩
    | phantom owner index =>
      obtain ⟨card, inside, isCard, rfl⟩ := repaired.owners node member owner index data
      obtain ⟨record, present, parts⟩ := saved inside isCard
      refine ⟨record, present, ?_⟩
      rw [parts]
      exact List.mem_append_left _ (Board.mem_sortedPhantoms.mpr ⟨member, index, data⟩)

/-- The nodes that the saved deck makes are those of the board. -/
theorem rawNodes_reconcile_perm :
    (deck.reconcile nodes).rawNodes.Perm (Board.ofNodes nodes).nodes := by
  have repaired := Board.repaired_ofNodes nodes
  have nodup : (Board.ofNodes nodes).nodes.Nodup := List.Nodup.of_map _ repaired.distinct
  have slots : ((deck.reconcile nodes).cards.flatMap (deck.reconcile nodes).nodesOfCard).Nodup := by
    refine Lists.nodup_flatMap_of_key Node.owner (nodup_nodeId_reconcile onBoard canonical)
      (fun card member => ?_) fun card _ node => owner_of_mem_nodesOfCard
    obtain ⟨node, inside, named, parts⟩ := exists_nodesOfCard_reconcile onBoard canonical member
    rw [parts, List.nodup_append]
    refine ⟨Board.nodup_sortedPhantoms repaired.distinct _, List.nodup_singleton _, ?_⟩
    rintro phantom listed _ here rfl
    obtain ⟨-, index, data⟩ := Board.mem_sortedPhantoms.mp listed
    rw [List.mem_singleton.mp here] at data
    simp [Node.slot?, data] at named
  unfold rawNodes
  rw [map_zoneNode_reconcile]
  refine (List.perm_ext_iff_of_nodup ?_ nodup).mpr fun node => ?_
  · refine List.nodup_append.mpr ⟨nodup.filter _, slots, ?_⟩
    rintro node isGroup other listed rfl
    exact ((mem_flatMap_nodesOfCard_reconcile onBoard canonical).mp listed).2
      (List.mem_filter.mp isGroup).2
  · rw [List.mem_append, mem_flatMap_nodesOfCard_reconcile onBoard canonical, List.mem_filter,
      ← and_or_left]
    exact and_iff_left (em _)

theorem toNodes_reconcile_perm_ofNodes :
    (deck.reconcile nodes).toNodes.Perm (Board.ofNodes nodes).nodes := by
  have perm := rawNodes_reconcile_perm onBoard canonical
  have repaired := (Board.repaired_ofNodes nodes).perm perm.symm
  refine (Board.sortByNesting_perm _).trans ?_
  rwa [Board.ofNodes_nodes_of_repaired repaired]

end

/-- **A saved board comes back.** -/
theorem toNodes_reconcile_perm (deck : Deck α) (nodes : List (Node α))
    (unchanged : (Board.ofNodes nodes).nodes = nodes) (canonical : Node.Canonical nodes)
    (onBoard : deck.OnBoard nodes) : (deck.reconcile nodes).toNodes.Perm nodes := by
  have onRepaired : deck.OnBoard (Board.ofNodes nodes).nodes := by rwa [unchanged]
  have perm := toNodes_reconcile_perm_ofNodes onRepaired (by rwa [unchanged])
  rwa [unchanged] at perm

end

/-- A board with a group inside a group, a card with two phantoms and a card of the sideboard. -/
def nestedBoard : List (Node Nat) :=
  [⟨"inner", ⟨0, 60⟩, some "outer", .group "Ramp" 300 200⟩,
    ⟨"shock_phantom_1", ⟨5, 5⟩, none, .phantom "shock" 1⟩,
    ⟨"shock", ⟨10, 20⟩, some "inner", .card "shock" .main .commander none⟩,
    ⟨"shock_phantom_0", ⟨7, 7⟩, some "outer", .phantom "shock" 0⟩,
    ⟨"bolt_side", ⟨90, 0⟩, none, .card "bolt" .sideboard .normal (some "m10")⟩,
    ⟨"outer", ⟨400, 0⟩, none, .group "All" 600 400⟩]

/-- A deck of one card of that board, at another place. -/
def shockDeck : Deck Nat :=
  ⟨"d", "Burn", [⟨"shock", 3, .main, .normal, none, ⟨0, 0, some "gone"⟩, []⟩], [], [], none⟩

theorem canonical_nestedBoard : Node.Canonical nestedBoard := by
  refine ⟨?_, ?_, ?_⟩
  · intro node member slot named
    simp only [nestedBoard, List.mem_cons, List.not_mem_nil, or_false] at member
    rcases member with rfl | rfl | rfl | rfl | rfl | rfl <;> cases named <;> decide
  · intro node member owner index data
    simp only [nestedBoard, List.mem_cons, List.not_mem_nil, or_false] at member
    rcases member with rfl | rfl | rfl | rfl | rfl | rfl <;> cases data <;> decide
  · intro card member isCard
    simp only [nestedBoard, List.mem_cons, List.not_mem_nil, or_false] at member
    rcases member with rfl | rfl | rfl | rfl | rfl | rfl
    case inr.inr.inl =>
      refine ⟨2, fun index => ?_⟩
      simp [nestedBoard]
      omega
    case inr.inr.inr.inr.inl => exact ⟨0, fun index => by simp [nestedBoard]⟩
    all_goals cases isCard

theorem onBoard_shockDeck : shockDeck.OnBoard nestedBoard := by
  refine ⟨by decide, ?_, ?_⟩
  · intro card member
    rw [List.mem_singleton.mp member]
    exact ⟨_, .tail _ (.tail _ (.head _)), rfl⟩
  · intro card member node _ _ _
    rw [List.mem_singleton.mp member]

theorem toNodes_reconcile_shockDeck :
    (Board.ofNodes nestedBoard).nodes = nestedBoard ∧ Node.Canonical nestedBoard ∧
      shockDeck.OnBoard nestedBoard ∧
      ((shockDeck.reconcile nestedBoard).toNodes).Perm nestedBoard :=
  ⟨by decide +kernel, canonical_nestedBoard, onBoard_shockDeck,
    toNodes_reconcile_perm shockDeck nestedBoard (by decide +kernel) canonical_nestedBoard
      onBoard_shockDeck⟩

end Deck

end DeckBuilder
