import DeckBuilder.Proofs.Deck.Merge
import Mathlib.Logic.Function.Iterate

/-! # Saving the same board again

Saving a board into a deck a second time changes nothing, whatever the deck. Slots may be there
several times: a board fills the first card of a slot, and reads the count and the version from the
last one. Both come out of the saved deck as they went in, so that the second time places the same
cards; and placing cards where they already are changes nothing.
-/

namespace DeckBuilder

variable {α : Type}

namespace Board

/-! ## Filling slots again -/

section

variable {previous placed : List (DeckCard α)}

theorem mergeSlots_self (placed : List (DeckCard α)) : mergeSlots placed placed = placed := by
  induction placed with
  | nil => rfl
  | cons card rest ih => simp [mergeSlots, ih]

/-- Slots that are filled stay as they are when the same cards fill them. -/
theorem mergeSlots_mergeSlots (previous placed : List (DeckCard α)) :
    mergeSlots (mergeSlots previous placed) placed = mergeSlots previous placed := by
  -- Along the previous cards: both times the same placed cards are left over for the rest.
  induction previous generalizing placed with
  | nil => exact mergeSlots_self placed
  | cons card rest ih =>
    cases found : placed.find? (·.slot == card.slot) with
    | none =>
      simp only [mergeSlots, found]
      rw [ih]
    | some record =>
      have named : record.slot = card.slot := by simpa using List.find?_some found
      simp only [mergeSlots, found, named]
      rw [ih]

/-- Changing cards without moving them to other slots can be done before or after merging. -/
theorem map_mergeSlots {change : DeckCard α → DeckCard α}
    (keeps : ∀ card, (change card).slot = card.slot) (previous placed : List (DeckCard α)) :
    (mergeSlots previous placed).map change =
      mergeSlots (previous.map change) (placed.map change) := by
  induction previous generalizing placed with
  | nil => rfl
  | cons card rest ih =>
    have sought : ((·.slot == card.slot) ∘ change : DeckCard α → Bool) = (·.slot == card.slot) :=
      funext fun other => congrArg (· == card.slot) (keeps other)
    cases found : placed.find? (·.slot == card.slot) <;>
      simp [mergeSlots, keeps, List.find?_map, List.eraseP_map, sought, found, ih]

/-- The first card of a slot that is filled is replaced, and its other cards stay. -/
theorem filter_slot_mergeSlots (distinct : (placed.map (·.slot)).Nodup) (slot : Slot) :
    (mergeSlots previous placed).filter (·.slot == slot) =
      match placed.find? (·.slot == slot) with
      | some record => record :: (previous.filter (·.slot == slot)).tail
      | none => previous.filter (·.slot == slot) := by
  induction previous generalizing placed with
  | nil =>
    rw [mergeSlots, Lists.filter_key distinct]
    cases placed.find? (·.slot == slot) <;> rfl
  | cons card rest ih =>
    cases found : placed.find? (·.slot == card.slot) with
    | none =>
      by_cases here : card.slot = slot
      · subst here
        simp [mergeSlots, found, ih distinct]
      · simp [mergeSlots, found, ih distinct, here]
    | some record =>
      have named : record.slot = card.slot := by simpa using List.find?_some found
      have others : ((placed.eraseP (·.slot == card.slot)).map (·.slot)).Nodup :=
        distinct.sublist ((List.eraseP_sublist ..).map _)
      by_cases here : card.slot = slot
      · subst here
        simp [mergeSlots, found, named, ih others, find?_eraseP_slot distinct]
      · simp [mergeSlots, found, named, ih others, find?_eraseP_slot distinct, here, Ne.symm here]

/-- The last card of a slot that is filled is the new card, or the last one as before. -/
theorem find?_reverse_mergeSlots (distinct : (placed.map (·.slot)).Nodup) {slot : Slot}
    {record : DeckCard α} (found : placed.find? (·.slot == slot) = some record) :
    (mergeSlots previous placed).reverse.find? (·.slot == slot) = some record ∨
      (mergeSlots previous placed).reverse.find? (·.slot == slot) =
        previous.reverse.find? (·.slot == slot) := by
  simp only [Lists.find?_reverse_eq_getLast?, filter_slot_mergeSlots distinct, found]
  cases filled : previous.filter (·.slot == slot) with
  | nil => exact .inl rfl
  | cons first others =>
    cases others with
    | nil => exact .inl rfl
    | cons second others => exact .inr rfl

end

/-! ## Placing cards again -/

section

variable (board : Board α) {previous : List (DeckCard α)}

/-- A node of a slot yields the same card again from the cards that its card was merged into. -/
theorem deckCard?_toDeckCards {slot : Slot} {node : Node α}
    (first : board.firstNode? slot = some node) :
    board.deckCard? (board.toDeckCards previous) node = board.deckCard? previous node := by
  obtain ⟨record, shown, rfl⟩ := board.exists_deckCard? previous first
  have found : (board.placedCards previous).find? (·.slot == record.slot) = some record := by
    rw [find?_placedCards, first, Option.bind_some, shown]
  -- The last card of the slot is the one that was placed, or an earlier one that was left alone.
  rcases find?_reverse_mergeSlots (board.nodup_placedCards previous) found with filled | kept
  · rw [shown]
    exact board.deckCard?_eq_of_prior shown filled rfl rfl
  · cases data : node.data with
    | phantom | group => simp only [deckCard?, data]
    | card cardId part role version =>
      have slot : record.slot = ⟨cardId, part⟩ := by
        rw [← Option.some_inj, ← Option.map_some, ← shown, map_slot_deckCard?, Node.slot?, data]
      rw [slot] at kept
      simp only [deckCard?, data, toDeckCards, kept]

theorem deckCard?_map_within (zones : List (Zone α)) (node : Node α) :
    board.deckCard? (previous.map (·.within zones)) node = board.deckCard? previous node := by
  have within : ∀ slot : Slot, (previous.map (·.within zones)).reverse.find? (·.slot == slot) =
      (previous.reverse.find? (·.slot == slot)).map (·.within zones) := by
    intro slot
    rw [← List.map_reverse, List.find?_map]
    rfl
  cases data : node.data with
  | phantom | group => simp only [deckCard?, data]
  | card cardId part role version =>
    simp only [deckCard?, data, within, Option.map_map]
    cases previous.reverse.find? (·.slot == (⟨cardId, part⟩ : Slot)) <;> rfl

/-- Only the first node of each slot places a card. -/
theorem placedCards_congr {other : List (DeckCard α)}
    (same : ∀ slot node, board.firstNode? slot = some node →
      board.deckCard? other node = board.deckCard? previous node) :
    board.placedCards other = board.placedCards previous := by
  refine Lists.eq_of_find?_key (board.nodup_placedCards other) ?_ fun slot => ?_
  · rw [map_slot_placedCards, map_slot_placedCards]
  · rw [find?_placedCards, find?_placedCards]
    cases first : board.firstNode? slot with
    | none => rfl
    | some node => exact same slot node first

/-- The board places the same cards when it is saved again. -/
theorem placedCards_map_within_toDeckCards (zones : List (Zone α)) :
    board.placedCards ((board.toDeckCards previous).map (·.within zones)) =
      board.placedCards previous := by
  refine board.placedCards_congr fun slot node first => ?_
  rw [deckCard?_map_within, board.deckCard?_toDeckCards first]

end

end Board

/-! ## Saving again -/

theorem Position.within_within (position : Position α) (zones : List (Zone α)) :
    (position.within zones).within zones = position.within zones := by
  simp only [Position.within, Option.filter_filter, Bool.and_self]

theorem DeckCard.within_within (card : DeckCard α) (zones : List (Zone α)) :
    (card.within zones).within zones = card.within zones := by
  simp only [DeckCard.within, List.map_map, Position.within_within]
  refine congrArg (DeckCard.mk _ _ _ _ _ _) (List.map_congr_left fun phantom _ => ?_)
  exact phantom.within_within zones

namespace Deck

/-- Saving the same board again changes nothing. -/
theorem reconcile_reconcile (deck : Deck α) (nodes : List (Node α)) :
    (deck.reconcile nodes).reconcile nodes = deck.reconcile nodes := by
  let board := Board.ofNodes nodes
  let tidy (card : DeckCard α) : DeckCard α := card.within board.toZones
  let merged := board.toDeckCards deck.cards
  have keeps (card : DeckCard α) : (tidy card).slot = card.slot := rfl
  have twice : (merged.map tidy).map tidy = merged.map tidy := by
    rw [List.map_map]
    exact List.map_congr_left fun card _ => card.within_within board.toZones
  have again : (board.toDeckCards (merged.map tidy)).map tidy = merged.map tidy :=
    calc (board.toDeckCards (merged.map tidy)).map tidy
        = (Board.mergeSlots (merged.map tidy) (board.placedCards deck.cards)).map tidy := by
          rw [Board.toDeckCards, board.placedCards_map_within_toDeckCards]
      _ = (Board.mergeSlots merged (board.placedCards deck.cards)).map tidy := by
          rw [Board.map_mergeSlots keeps, twice, ← Board.map_mergeSlots keeps]
      _ = merged.map tidy := congrArg _ (Board.mergeSlots_mergeSlots deck.cards _)
  exact congrArg (fun cards => { deck with cards, zones := board.toZones }) again

/-- **However often a board is saved, it is as if it were saved once.** Neither slots that the deck
has several times nor parents that are no zones make a difference. -/
theorem iterate_reconcile (deck : Deck α) (nodes : List (Node α)) :
    (deck.reconcile nodes).reconcile nodes = deck.reconcile nodes ∧
      ∀ times, (fun saved : Deck α => saved.reconcile nodes)^[times + 1] deck =
        deck.reconcile nodes := by
  have again := reconcile_reconcile deck nodes
  refine ⟨again, fun times => ?_⟩
  rw [Function.iterate_succ_apply]
  exact Function.iterate_fixed again times

/-- A deck that has a slot twice. The board fills the first card with the count of the last one. -/
example :
    let deck : Deck Nat := ⟨"d", "Deck",
      [⟨"shock", 3, .main, .normal, some "2xm", ⟨0, 0, none⟩, []⟩,
        ⟨"shock", 2, .main, .normal, some "m10", ⟨5, 5, some "gone"⟩, []⟩], [], [], none⟩
    let saved := deck.reconcile [⟨"shock", ⟨1, 1⟩, none, .card "shock" .main .normal none⟩]
    saved.cards = [⟨"shock", 2, .main, .normal, some "m10", ⟨1, 1, none⟩, []⟩,
      ⟨"shock", 2, .main, .normal, some "m10", ⟨5, 5, none⟩, []⟩] := by
  decide +kernel

end Deck

end DeckBuilder
