import DeckBuilder.Deck.Reconcile
import DeckBuilder.Proofs.Lists

/-! # Merging a board into a deck

The cards of a board are merged with the previous cards of the deck slot by slot. Each slot of
either side has one card in the result. The board decides where the card lies, what its role is and
where its phantoms are; the previous card decides how many copies there are.
-/

namespace DeckBuilder

variable {α : Type}

namespace Node

/-- The slot that a card node stands for. -/
def slot? (node : Node α) : Option Slot :=
  match node.data with
  | .card cardId part .. => some ⟨cardId, part⟩
  | _ => none

end Node

namespace Board

/-- The first node of a slot. -/
def firstNode? (board : Board α) (slot : Slot) : Option (Node α) :=
  board.nodes.find? (·.slot? == some slot)

/-- The phantoms of a card node, ordered by index, and by their order on the board where indices
are equal. -/
structure PhantomOrder (board : Board α) (cardNode : String) (phantoms : List (Node α)) : Prop where
  perm : phantoms.Perm (board.nodes.filter fun node => (node.phantomIndex? cardNode).isSome)
  sorted : phantoms.Pairwise fun first second => ∀ i j, first.phantomIndex? cardNode = some i →
    second.phantomIndex? cardNode = some j → i ≤ j
  stable : ∀ index, phantoms.filter (·.phantomIndex? cardNode == some index) =
    board.nodes.filter (·.phantomIndex? cardNode == some index)

/-- A deck card is what a node shows of its slot, with the version of the previous card when the
node has none. -/
structure Shows (board : Board α) (prior : Option (DeckCard α)) (node : Node α)
    (card : DeckCard α) : Prop where
  data : ∃ version, node.data = .card card.cardId card.part card.role version ∧
    card.version = version.or (prior.bind (·.version))
  position : card.position = ⟨node.position.x, node.position.y, node.parent⟩
  phantoms : ∃ phantoms, board.PhantomOrder node.id phantoms ∧
    card.phantoms = phantoms.map fun phantom =>
      ⟨phantom.position.x, phantom.position.y, phantom.parent⟩

/-- The result of merging a board with the previous cards of a deck. -/
structure Merges (board : Board α) (previous merged : List (DeckCard α)) : Prop where
  slots : merged.map (·.slot) = previous.map (·.slot) ++
    (board.nodes.filterMap (·.slot?)).eraseDups.filter (· ∉ previous.map (·.slot))
  distinct : (merged.map (·.slot)).Nodup
  counts : ∀ card ∈ merged, ∀ prior ∈ previous, prior.slot = card.slot → card.count = prior.count
  single : ∀ card ∈ merged, card.slot ∉ previous.map (·.slot) → card.count = 1
  kept : ∀ prior ∈ previous, board.firstNode? prior.slot = none → prior ∈ merged
  shown : ∀ card ∈ merged, ∀ node, board.firstNode? card.slot = some node →
    board.Shows (previous.find? (·.slot == card.slot)) node card

/-! ## Phantoms -/

/-- The phantoms of a card node in the order in which a deck card lists them. -/
def sortedPhantoms (board : Board α) (cardNode : String) : List (Node α) :=
  (board.nodes.filter fun node => (node.phantomIndex? cardNode).isSome).mergeSort
    fun first second =>
      (first.phantomIndex? cardNode).getD 0 ≤ (second.phantomIndex? cardNode).getD 0

theorem phantomsOf_eq (board : Board α) (cardNode : String) :
    board.phantomsOf cardNode = (board.sortedPhantoms cardNode).map (·.placement) := by
  let entry (node : Node α) : Nat × Position α :=
    ((node.phantomIndex? cardNode).getD 0, node.placement)
  have entries : (board.nodes.filterMap fun node =>
      (node.phantomIndex? cardNode).map fun index => (index, node.placement)) =
        (board.nodes.filter fun node => (node.phantomIndex? cardNode).isSome).map entry := by
    induction board.nodes with
    | nil => rfl
    | cons node rest ih =>
      rw [List.filterMap_cons, List.filter_cons, ih]
      cases index : node.phantomIndex? cardNode <;> simp [entry, index]
  have sorted : (board.sortedPhantoms cardNode).map entry =
      ((board.nodes.filter fun node => (node.phantomIndex? cardNode).isSome).map entry).mergeSort
        fun first second => first.1 ≤ second.1 :=
    List.map_mergeSort fun _ _ _ _ => rfl
  rw [phantomsOf, entries, ← sorted, List.map_map]
  rfl

theorem phantomOrder_sortedPhantoms (board : Board α) (cardNode : String) :
    board.PhantomOrder cardNode (board.sortedPhantoms cardNode) := by
  have trans : ∀ a b c : Node α,
      decide ((a.phantomIndex? cardNode).getD 0 ≤ (b.phantomIndex? cardNode).getD 0) →
      decide ((b.phantomIndex? cardNode).getD 0 ≤ (c.phantomIndex? cardNode).getD 0) →
      decide ((a.phantomIndex? cardNode).getD 0 ≤ (c.phantomIndex? cardNode).getD 0) := by
    simp only [decide_eq_true_eq]
    exact fun _ _ _ => Nat.le_trans
  have total : ∀ a b : Node α,
      (decide ((a.phantomIndex? cardNode).getD 0 ≤ (b.phantomIndex? cardNode).getD 0) ||
        decide ((b.phantomIndex? cardNode).getD 0 ≤ (a.phantomIndex? cardNode).getD 0)) = true := by
    simp only [Bool.or_eq_true, decide_eq_true_eq]
    exact fun _ _ => Nat.le_total _ _
  refine ⟨List.mergeSort_perm _ _, ?_, fun index => ?_⟩
  · refine (List.pairwise_mergeSort trans total _).imp fun order i j left right => ?_
    simpa [left, right] using order
  · unfold sortedPhantoms
    rw [Lists.filter_mergeSort trans total, List.filter_filter]
    · apply List.filter_congr
      intro node _
      by_cases named : node.phantomIndex? cardNode = some index <;> simp [named]
    · intro a b left right
      rw [beq_iff_eq.mp left, beq_iff_eq.mp right]
      simp

/-! ## Placed cards -/

theorem map_slot_deckCard? (board : Board α) (previous : List (DeckCard α)) (node : Node α) :
    (board.deckCard? previous node).map (·.slot) = node.slot? := by
  cases data : node.data <;> simp [deckCard?, Node.slot?, data, DeckCard.slot]

/-- The placed cards are those of the first nodes of the slots. -/
theorem find?_placedCards (board : Board α) (previous : List (DeckCard α)) (slot : Slot) :
    (board.placedCards previous).find? (·.slot == slot) =
      (board.firstNode? slot).bind (board.deckCard? previous) := by
  unfold placedCards
  rw [find?_distinctBy, List.find?_filterMap, firstNode?]
  congr 2
  funext node
  rw [← map_slot_deckCard? board previous node]
  cases board.deckCard? previous node <;> simp

theorem map_slot_placedCards (board : Board α) (previous : List (DeckCard α)) :
    (board.placedCards previous).map (·.slot) = (board.nodes.filterMap (·.slot?)).eraseDups := by
  unfold placedCards
  rw [map_distinctBy, List.map_filterMap]
  simp only [map_slot_deckCard?]

/-! ## Merging -/

section

variable {previous placed : List (DeckCard α)}

theorem eraseP_slot (distinct : (placed.map (·.slot)).Nodup) (slot : Slot) :
    placed.eraseP (·.slot == slot) = placed.filter (·.slot != slot) := by
  induction placed with
  | nil => rfl
  | cons card rest ih =>
    obtain ⟨fresh, tail⟩ := List.nodup_cons.mp distinct
    by_cases here : card.slot = slot
    · have kept : rest.filter (·.slot != slot) = rest := by
        refine List.filter_eq_self.mpr fun other member => bne_iff_ne.mpr fun same => ?_
        exact fresh (List.mem_map.mpr ⟨other, member, same.trans here.symm⟩)
      simp [here, kept]
    · simp [here, ih tail]

/-- Without the card of one slot the other cards are found as before. -/
theorem find?_eraseP_slot (distinct : (placed.map (·.slot)).Nodup) (other slot : Slot) :
    (placed.eraseP (·.slot == other)).find? (·.slot == slot) =
      if slot = other then none else placed.find? (·.slot == slot) := by
  rw [eraseP_slot distinct, List.find?_filter]
  split
  · rename_i same
    simp [same]
  · rename_i apart
    refine congrArg (List.find? · placed) (funext fun card => ?_)
    by_cases here : card.slot = slot <;> simp [here, apart]

/-- Merging fills the previous slots from the placed cards, and the new slots follow. -/
theorem mergeSlots_eq (previousDistinct : (previous.map (·.slot)).Nodup)
    (placedDistinct : (placed.map (·.slot)).Nodup) :
    mergeSlots previous placed =
      previous.map (fun card => (placed.find? (·.slot == card.slot)).getD card) ++
        placed.filter (·.slot ∉ previous.map (·.slot)) := by
  induction previous generalizing placed with
  | nil => simp [mergeSlots]
  | cons card rest ih =>
    obtain ⟨fresh, tail⟩ := List.nodup_cons.mp previousDistinct
    -- What is left over for the other slots when the slot of `card` is filled.
    let others := placed.eraseP (·.slot == card.slot)
    have step : mergeSlots (card :: rest) placed =
        (placed.find? (·.slot == card.slot)).getD card :: mergeSlots rest others := by
      rw [mergeSlots]
      cases found : placed.find? (·.slot == card.slot) with
      | some record => rfl
      | none =>
        have kept : others = placed := List.eraseP_of_forall_not (List.find?_eq_none.mp found)
        rw [kept]
        rfl
    have otherRecords : rest.map (fun other => (others.find? (·.slot == other.slot)).getD other) =
        rest.map fun other => (placed.find? (·.slot == other.slot)).getD other := by
      apply List.map_congr_left
      intro other member
      have apart : other.slot ≠ card.slot := fun same =>
        fresh (List.mem_map.mpr ⟨other, member, same⟩)
      rw [find?_eraseP_slot placedDistinct, if_neg apart]
    have leftOver : others.filter (·.slot ∉ rest.map (·.slot)) =
        placed.filter (·.slot ∉ (card :: rest).map (·.slot)) := by
      rw [show others = _ from eraseP_slot placedDistinct card.slot, List.filter_filter]
      apply List.filter_congr
      intro record _
      by_cases here : record.slot = card.slot <;> simp [here]
    have othersDistinct : (others.map (·.slot)).Nodup :=
      placedDistinct.sublist ((List.eraseP_sublist ..).map _)
    rw [step, ih tail othersDistinct, otherRecords, leftOver]
    rfl

end

section

variable (board : Board α) {previous : List (DeckCard α)}

theorem nodup_placedCards (previous : List (DeckCard α)) :
    ((board.placedCards previous).map (·.slot)).Nodup :=
  nodup_distinctBy _

theorem toDeckCards_eq (distinct : (previous.map (·.slot)).Nodup) :
    board.toDeckCards previous =
      previous.map (fun card =>
        (((board.firstNode? card.slot).bind (board.deckCard? previous)).getD card)) ++
        (board.placedCards previous).filter (·.slot ∉ previous.map (·.slot)) := by
  unfold toDeckCards
  rw [mergeSlots_eq distinct (board.nodup_placedCards previous)]
  simp only [find?_placedCards]

/-- Where the deck has all slots of the board, merging changes the cards one by one. -/
theorem toDeckCards_eq_map (distinct : (previous.map (·.slot)).Nodup)
    (covered : ∀ node ∈ board.nodes, ∀ slot, node.slot? = some slot →
      slot ∈ previous.map (·.slot)) :
    board.toDeckCards previous = previous.map fun card =>
      ((board.firstNode? card.slot).bind (board.deckCard? previous)).getD card := by
  rw [toDeckCards_eq board distinct, List.append_right_eq_self, List.filter_eq_nil_iff]
  intro card placed fresh
  have named : card.slot ∈ (board.nodes.filterMap (·.slot?)).eraseDups := by
    rw [← map_slot_placedCards board previous]
    exact List.mem_map_of_mem placed
  obtain ⟨node, member, shown⟩ := List.mem_filterMap.mp (List.mem_eraseDups.mp named)
  exact of_decide_eq_true fresh (covered node member card.slot shown)

/-- A card node yields the record of its slot. -/
theorem exists_deckCard? (previous : List (DeckCard α)) {slot : Slot} {node : Node α}
    (first : board.firstNode? slot = some node) :
    ∃ card, board.deckCard? previous node = some card ∧ card.slot = slot := by
  have shown := map_slot_deckCard? board previous node
  rw [show node.slot? = some slot by simpa using List.find?_some first] at shown
  exact Option.map_eq_some_iff.mp shown

/-- A merged card is the record of the first node of its slot, or a previous card that the board
does not show. -/
theorem mem_toDeckCards (distinct : (previous.map (·.slot)).Nodup) {card : DeckCard α}
    (member : card ∈ board.toDeckCards previous) :
    (∃ node, board.firstNode? card.slot = some node ∧
        board.deckCard? previous node = some card) ∨
      (board.firstNode? card.slot = none ∧ card ∈ previous) := by
  rw [toDeckCards_eq board distinct, List.mem_append] at member
  rcases member with earlier | later
  · obtain ⟨prior, present, rfl⟩ := List.mem_map.mp earlier
    cases first : board.firstNode? prior.slot with
    | none =>
      rw [Option.bind_none, Option.getD_none]
      exact .inr ⟨first, present⟩
    | some node =>
      obtain ⟨record, shown, named⟩ := board.exists_deckCard? previous first
      rw [Option.bind_some, shown, Option.getD_some, named]
      exact .inl ⟨node, first, shown⟩
  · have found := find?_of_mem_distinctBy (List.mem_filter.mp later).1
    rw [← find?_distinctBy] at found
    obtain ⟨node, first, shown⟩ :=
      Option.bind_eq_some_iff.mp ((board.find?_placedCards previous card.slot).symm.trans found)
    exact .inl ⟨node, first, shown⟩

/-- The record of a node, read off the previous cards without regard to their order. -/
theorem shows_of_deckCard? (distinct : (previous.map (·.slot)).Nodup) {node : Node α}
    {card : DeckCard α} (shown : board.deckCard? previous node = some card) :
    board.Shows (previous.find? (·.slot == card.slot)) node card ∧
      card.count = ((previous.find? (·.slot == card.slot)).map (·.count)).getD 1 := by
  cases data : node.data with
  | phantom | group => simp [deckCard?, data] at shown
  | card cardId part role version =>
    simp only [deckCard?, data, Lists.find?_reverse distinct, Option.some.injEq] at shown
    subst shown
    refine ⟨⟨⟨version, data, rfl⟩, rfl, ?_⟩, rfl⟩
    exact ⟨_, board.phantomOrder_sortedPhantoms node.id, board.phantomsOf_eq node.id⟩

theorem map_slot_toDeckCards (distinct : (previous.map (·.slot)).Nodup) :
    (board.toDeckCards previous).map (·.slot) = previous.map (·.slot) ++
      (board.nodes.filterMap (·.slot?)).eraseDups.filter (· ∉ previous.map (·.slot)) := by
  have before : (previous.map fun card =>
      ((board.firstNode? card.slot).bind (board.deckCard? previous)).getD card).map (·.slot) =
        previous.map (·.slot) := by
    rw [List.map_map]
    apply List.map_congr_left
    intro card _
    rw [Function.comp_apply]
    cases first : board.firstNode? card.slot with
    | none => rfl
    | some node =>
      obtain ⟨record, shown, named⟩ := board.exists_deckCard? previous first
      rw [Option.bind_some, shown, Option.getD_some, named]
  rw [toDeckCards_eq board distinct, List.map_append, before, ← map_slot_placedCards board previous,
    List.filter_map]
  rfl

theorem nodup_slot_toDeckCards (distinct : (previous.map (·.slot)).Nodup) :
    ((board.toDeckCards previous).map (·.slot)).Nodup := by
  rw [map_slot_toDeckCards board distinct, List.nodup_append]
  refine ⟨distinct, ?_, ?_⟩
  · rw [← map_slot_placedCards board previous]
    exact (board.nodup_placedCards previous).filter _
  · intro slot earlier other later
    rintro rfl
    exact of_decide_eq_true (List.mem_filter.mp later).2 earlier

theorem slot_mem_toDeckCards (distinct : (previous.map (·.slot)).Nodup) {node : Node α}
    (member : node ∈ board.nodes) {slot : Slot} (named : node.slot? = some slot) :
    slot ∈ (board.toDeckCards previous).map (·.slot) := by
  rw [map_slot_toDeckCards board distinct, List.mem_append]
  by_cases known : slot ∈ previous.map (·.slot)
  · exact .inl known
  · refine .inr (List.mem_filter.mpr ⟨?_, decide_eq_true known⟩)
    exact List.mem_eraseDups.mpr (List.mem_filterMap.mpr ⟨node, member, named⟩)

/-- A node yields the same record again from cards that have its count and its version. -/
theorem deckCard?_eq_of_prior {merged : List (DeckCard α)} {node : Node α} {card prior : DeckCard α}
    (shown : board.deckCard? previous node = some card)
    (found : merged.reverse.find? (·.slot == card.slot) = some prior)
    (count : prior.count = card.count) (version : prior.version = card.version) :
    board.deckCard? merged node = some card := by
  cases data : node.data with
  | phantom | group => simp [deckCard?, data] at shown
  | card cardId part role printing =>
    simp only [deckCard?, data, Option.some.injEq] at shown ⊢
    subst shown
    change merged.reverse.find? (·.slot == (⟨cardId, part⟩ : Slot)) = some prior at found
    rw [found, Option.map_some, Option.getD_some, Option.bind_some, count, version,
      ← Option.or_assoc, Option.or_self]

/-- **Merging keeps every slot once and counts nothing twice.** -/
theorem merges_toDeckCards (previous : List (DeckCard α))
    (distinct : (previous.map (·.slot)).Nodup) :
    board.Merges previous (board.toDeckCards previous) := by
  have count {card : DeckCard α} (member : card ∈ board.toDeckCards previous) :
      card.count = ((previous.find? (·.slot == card.slot)).map (·.count)).getD 1 := by
    rcases board.mem_toDeckCards distinct member with ⟨node, -, shown⟩ | ⟨-, present⟩
    · exact (board.shows_of_deckCard? distinct shown).2
    · rw [find?_eq_some_of_mem distinct present]
      rfl
  refine ⟨map_slot_toDeckCards board distinct, nodup_slot_toDeckCards board distinct, ?_, ?_, ?_,
    ?_⟩
  · intro card member prior present same
    rw [count member, ← same, find?_eq_some_of_mem distinct present]
    rfl
  · intro card member fresh
    have absent : previous.find? (·.slot == card.slot) = none := by
      refine List.find?_eq_none.mpr fun prior present same => fresh ?_
      exact List.mem_map.mpr ⟨prior, present, beq_iff_eq.mp same⟩
    rw [count member, absent]
    rfl
  · intro prior present unplaced
    rw [toDeckCards_eq board distinct]
    refine List.mem_append_left _ (List.mem_map.mpr ⟨prior, present, ?_⟩)
    rw [unplaced]
    rfl
  · intro card member node first
    rcases board.mem_toDeckCards distinct member with ⟨other, found, shown⟩ | ⟨unplaced, -⟩
    · rw [Option.some.inj (first.symm.trans found)]
      exact (board.shows_of_deckCard? distinct shown).1
    · rw [unplaced] at first
      cases first

end

/-- A board with two nodes for one slot, phantoms of both, and a node for another slot. -/
def sharedSlot : Board Nat :=
  indexed [⟨"shock_phantom_1", ⟨5, 0⟩, none, .phantom "shock" 1⟩,
    ⟨"shock", ⟨1, 1⟩, none, .card "shock" .main .companion none⟩,
    ⟨"again", ⟨2, 2⟩, none, .card "shock" .main .normal (some "m10")⟩,
    ⟨"again_phantom_0", ⟨3, 3⟩, none, .phantom "again" 0⟩,
    ⟨"shock_phantom_0", ⟨4, 0⟩, none, .phantom "shock" 0⟩,
    ⟨"sol-ring", ⟨7, 7⟩, none, .card "sol-ring" .main .normal none⟩]

/-- Cards of which one is on that board and one is not. -/
def halfPlaced : List (DeckCard Nat) :=
  [⟨"shock", 3, .main, .normal, some "2xm", ⟨9, 9, none⟩, []⟩,
    ⟨"emrakul", 2, .sideboard, .normal, none, ⟨0, 0, none⟩, []⟩]

theorem merges_sharedSlot :
    (halfPlaced.map (·.slot)).Nodup ∧
      sharedSlot.Merges halfPlaced (sharedSlot.toDeckCards halfPlaced) :=
  ⟨by decide, merges_toDeckCards sharedSlot halfPlaced (by decide)⟩

end Board

end DeckBuilder
