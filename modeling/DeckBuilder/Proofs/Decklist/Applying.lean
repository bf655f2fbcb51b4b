import DeckBuilder.Proofs.Decklist.Accounting
import DeckBuilder.Proofs.Decklist.Placing
import Mathlib.Algebra.Order.Ring.Int
import Mathlib.Data.List.Count
import Mathlib.Data.List.Find

/-! # The slots after an import

An import fills a slot for its commander and one slot of the main deck for each other card. These
slots are apart from each other, but the cards that stay are not looked at: a commander that stays,
or a companion, may be in a slot that the import fills.
-/

namespace DeckBuilder

open scoped ExactCoordinates

/-- Where one item at most is chosen, changing it amounts to putting it last in its new form. -/
theorem changeFirst_perm {β : Type} {chosen : β → Bool} (change : β → β) {items : List β}
    {first : β} (single : items.countP chosen ≤ 1) (found : items.find? chosen = some first) :
    (changeFirst chosen change items).Perm ((items.filter fun item => !chosen item) ++
      [change first]) := by
  induction items with
  | nil => cases found
  | cons item rest ih =>
    rw [changeFirst]
    by_cases here : chosen item
    · rw [List.find?_cons_of_pos here, Option.some_inj] at found
      rw [List.countP_cons_of_pos here] at single
      have others : rest.countP chosen = 0 := by omega
      have kept : (rest.filter fun other => !chosen other) = rest := by
        refine List.filter_eq_self.mpr fun other member => ?_
        simpa using List.countP_eq_zero.mp others other member
      rw [if_pos here, List.filter_cons_of_neg (by simpa using here), kept, found]
      exact (List.perm_append_singleton _ _).symm
    · rw [List.find?_cons_of_neg here] at found
      rw [List.countP_cons_of_neg here] at single
      rw [if_neg here, List.filter_cons_of_pos (by simpa using here)]
      exact (ih single found).cons item

namespace DeckImport

variable {imported : DeckImport}

/-! ## Cards are listed once -/

/-- No card is listed twice. -/
def ListsOnce (imported : DeckImport) : Prop :=
  (imported.cards.map (·.1.id)).Nodup

theorem listsOnce_count (once : imported.ListsOnce) (card : Card) (copies : UInt32) :
    (imported.count card copies).ListsOnce := by
  rw [ListsOnce, map_id_count]
  split
  · exact once
  · rename_i absent
    rw [← List.concat_eq_append, List.nodup_concat]
    exact ⟨absent, once⟩

theorem listsOnce_ofText (text : String) (catalogue : Catalogue) :
    (ofText text catalogue).ListsOnce := by
  refine cards_ofText_induction (motive := fun cards : List (Card × UInt32) =>
    (cards.map (·.1.id)).Nodup) ?_ List.nodup_nil text
  intro imported card _ copies once
  exact listsOnce_count once card copies

end DeckImport

namespace Deck

open DeckImport (alphaAndBeta)

variable {α : Type} {deck : Deck α} {imported : DeckImport}

/-! ## The slots of an import -/

/-- The cards that an import leaves in their slots: those of the sideboard and those with a role,
without the commander when the import brings one. -/
def stayingCards (deck : Deck α) (imported : DeckImport) : List (DeckCard α) :=
  deck.cards.filter fun card =>
    !card.isMainNormal && !(imported.commander.isSome && card.role == .commander)

/-- The slot of the commander that an import brings: a commander that is there already is replaced
in its part of the deck. -/
def leaderSlot? (deck : Deck α) (imported : DeckImport) : Option Slot :=
  imported.commander.map fun commander =>
    ⟨commander.id, (deck.commander?.map (·.part)).getD .main⟩

/-- The slots that an import fills. -/
def filledSlots (deck : Deck α) (imported : DeckImport) : List Slot :=
  (deck.leaderSlot? imported).toList ++
    imported.mainCards.map fun entry => ⟨entry.1.id, .main⟩

theorem nodup_filledSlots (once : imported.ListsOnce) : (deck.filledSlots imported).Nodup := by
  have main : (imported.mainCards.map fun entry => (⟨entry.1.id, .main⟩ : Slot)).Nodup := by
    have ids : (imported.mainCards.map (·.1.id)).Nodup :=
      once.sublist (List.filter_sublist.map _)
    have asSlots := ids.map (f := fun id => (⟨id, .main⟩ : Slot)) fun _ _ same =>
      congrArg Slot.cardId same
    rwa [List.map_map] at asSlots
  rw [filledSlots, leaderSlot?]
  cases leader : imported.commander with
  | none => exact main
  | some commander =>
    refine List.nodup_cons.mpr ⟨fun member => ?_, main⟩
    obtain ⟨entry, isEntry, same⟩ := List.mem_map.mp member
    have other := (List.mem_filter.mp isEntry).2
    have sameId : entry.1.id = commander.id := congrArg Slot.cardId same
    simp [leader, sameId] at other

section

variable [Coordinate α]

theorem map_slot_addedCards (cards : List (DeckCard α)) (entries : List (Card × UInt32)) :
    (addedCards cards entries).map (·.slot) = entries.map fun entry => ⟨entry.1.id, .main⟩ := by
  induction entries generalizing cards with
  | nil => rfl
  | cons entry rest ih =>
    rw [addedCards, List.map_cons, List.map_cons, ih]
    rfl

omit [Coordinate α] in
/-- The commander is not among the cards of the main deck that are replaced. -/
theorem find?_commander_kept (deck : Deck α) :
    (deck.cards.filter fun card => !card.isMainNormal).find? (·.role == .commander) =
      deck.commander? := by
  rw [List.find?_filter, commander?]
  refine List.find?_congr fun card _ => ?_
  cases role : card.role <;> simp [DeckCard.isMainNormal, role]

/-- Where one card at most leads, the commander of an import comes next to the cards that have
another role. -/
theorem exists_placeCommander_perm {cards : List (DeckCard α)}
    (single : cards.countP (·.role == .commander) ≤ 1) (commander : Card) :
    ∃ leader, leader.takenOverBy commander = leader ∧ leader.role = .commander ∧
      leader.part = ((cards.find? (·.role == .commander)).map (·.part)).getD .main ∧
      (placeCommander cards commander).Perm
        ((cards.filter fun card => !(card.role == .commander)) ++ [leader]) := by
  rw [placeCommander]
  cases found : cards.find? (·.role == .commander) with
  | none =>
    have others : ∀ card ∈ cards, (!(card.role == .commander)) = true := by
      simpa using List.find?_eq_none.mp found
    have absent : ¬ cards.any (·.role == .commander) := by
      simpa using List.find?_eq_none.mp found
    refine ⟨.ofCommander commander (freePosition cards), rfl, rfl, rfl, ?_⟩
    rw [if_neg absent, List.filter_eq_self.mpr others]
    exact .refl _
  | some first =>
    have leads : (first.role == .commander) = true := by simpa using List.find?_some found
    have present : cards.any (·.role == .commander) :=
      List.any_eq_true.mpr ⟨first, List.mem_of_find?_eq_some found, leads⟩
    refine ⟨first.takenOverBy commander, rfl, beq_iff_eq.mp leads, rfl, ?_⟩
    rw [if_pos present]
    exact changeFirst_perm (fun card : DeckCard α => card.takenOverBy commander) single found

/-- **The slots after an import** are those of the cards that stay and those that it fills. -/
theorem map_slot_applyImport_perm (single : deck.cards.countP (·.role == .commander) ≤ 1)
    (imported : DeckImport) (catalogue : Catalogue) :
    ((deck.applyImport imported catalogue).cards.map (·.slot)).Perm
      ((deck.stayingCards imported).map (·.slot) ++ deck.filledSlots imported) := by
  rw [applyImport_eq]
  refine ((sortByName_perm catalogue _).map _).trans ?_
  rw [List.map_append, map_slot_addedCards, filledSlots, leaderSlot?, stayingCards,
    ← List.append_assoc]
  refine List.Perm.append_right _ ?_
  cases leader : imported.commander with
  | none => simp [ledCards, leader]
  | some commander =>
    obtain ⟨first, taken, -, part, perm⟩ := exists_placeCommander_perm
      ((List.filter_sublist.countP_le).trans single) commander
    have slot : first.slot = ⟨commander.id, (deck.commander?.map (·.part)).getD .main⟩ := by
      rw [← find?_commander_kept, ← part, ← taken]
      rfl
    have moved := perm.map (·.slot)
    rw [List.map_append, List.map_singleton, slot, List.filter_filter] at moved
    simpa [ledCards, leader, Bool.and_comm] using moved

/-- **An import keeps slots apart** just when it fills no slot of a card that stays. -/
theorem nodup_slot_applyImport_iff (slots : (deck.cards.map (·.slot)).Nodup)
    (single : deck.cards.countP (·.role == .commander) ≤ 1) (text : String)
    (catalogue : Catalogue) :
    ((deck.applyImport (.ofText text catalogue) catalogue).cards.map (·.slot)).Nodup ↔
      ∀ card ∈ deck.stayingCards (.ofText text catalogue),
        card.slot ∉ deck.filledSlots (.ofText text catalogue) := by
  have staying : ((deck.stayingCards (.ofText text catalogue)).map (·.slot)).Nodup :=
    slots.sublist (List.filter_sublist.map _)
  have filled : (deck.filledSlots (.ofText text catalogue)).Nodup :=
    nodup_filledSlots (DeckImport.listsOnce_ofText text catalogue)
  rw [(map_slot_applyImport_perm single _ catalogue).nodup_iff, List.nodup_append']
  constructor
  · rintro ⟨-, -, apart⟩ card stays isFilled
    exact apart (List.mem_map_of_mem stays) isFilled
  · refine fun apart => ⟨staying, filled, fun slot isStaying isFilled => ?_⟩
    obtain ⟨card, stays, rfl⟩ := List.mem_map.mp isStaying
    exact apart card stays isFilled

/-- Alpha leads, with Beta as a companion in the sideboard. -/
def ledByAlpha : Deck Int :=
  let led := ((empty "deck" "Deck").addCard ⟨"b", .main⟩).setCommander "a"
  { led with
    cards := led.cards ++
      [{ DeckCard.single "b" .sideboard ⟨1, 0, none⟩ with role := .companion }] }

/-- Beta takes over from Alpha, which moves to the main deck. -/
theorem nodup_slot_applyImport_ledByAlpha :
    (ledByAlpha.cards.map (·.slot)).Nodup ∧
      ledByAlpha.cards.countP (·.role == .commander) ≤ 1 ∧
      ((ledByAlpha.applyImport (.ofText "Commander\n1 Beta\nDeck\n3 Alpha\n" alphaAndBeta)
        alphaAndBeta).cards.map (·.slot)).Nodup := by
  have slots : (ledByAlpha.cards.map (·.slot)).Nodup := by decide +kernel
  have single : ledByAlpha.cards.countP (·.role == .commander) ≤ 1 := by decide +kernel
  refine ⟨slots, single, (nodup_slot_applyImport_iff slots single _ alphaAndBeta).mpr ?_⟩
  decide +kernel

/-- A list without a commander puts Alpha next to the commander Alpha that stays. -/
theorem applyImport_repeats_slot :
    ¬ ∀ (catalogue : Catalogue) (deck : Deck Int) (text : String),
      (catalogue.cards.map (·.id)).Nodup → (deck.cards.map (·.slot)).Nodup →
        deck.cards.countP (·.role == .commander) ≤ 1 →
          ((deck.applyImport (.ofText text catalogue) catalogue).cards.map (·.slot)).Nodup := by
  intro every
  have ids : (alphaAndBeta.cards.map (·.id)).Nodup := by decide +kernel
  have slots : (ledByAlpha.cards.map (·.slot)).Nodup := by decide +kernel
  have single : ledByAlpha.cards.countP (·.role == .commander) ≤ 1 := by decide +kernel
  have repeated : ¬ ((ledByAlpha.applyImport (.ofText "1 Alpha\n" alphaAndBeta)
      alphaAndBeta).cards.map (·.slot)).Nodup := by
    rw [(map_slot_applyImport_perm single _ alphaAndBeta).nodup_iff]
    decide +kernel
  exact repeated (every alphaAndBeta ledByAlpha _ ids slots single)

end

end Deck

end DeckBuilder
