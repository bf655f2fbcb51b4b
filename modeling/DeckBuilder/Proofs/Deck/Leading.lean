import DeckBuilder.Decklist.Export
import DeckBuilder.Proofs.Deck.Editing
import DeckBuilder.Proofs.Decklist.Placing
import DeckBuilder.Proofs.Text.Decimal
import Mathlib.Data.List.Induction

/-! # Copies of the commander

A decklist names one copy of the commander. The card that becomes the commander starts with one
copy, by an edit as by an import, and keeps it until a copy is added to its slot.
-/

namespace DeckBuilder

open scoped ExactCoordinates

/-- What may happen to a deck: an edit, or an import with the catalogue that sorts it. -/
inductive DeckStep (α : Type) where
  | edit (edit : DeckEdit α)
  | applyImport (imported : DeckImport) (catalogue : Catalogue)
deriving DecidableEq

variable {α : Type}

namespace Deck

section

variable [Coordinate α]

/-- Takes a step. -/
def take (deck : Deck α) : DeckStep α → Deck α
  | .edit edit => deck.perform edit
  | .applyImport imported catalogue => deck.applyImport imported catalogue

/-- Takes steps one after the other. -/
def takeAll (deck : Deck α) (steps : List (DeckStep α)) : Deck α :=
  steps.foldl take deck

end

/-- Every commander among the cards is there once. -/
def LedOnce (cards : List (DeckCard α)) : Prop :=
  ∀ card ∈ cards, card.role = .commander → card.count = 1

/-- The step adds a copy to the slot of a commander. -/
def CopiesCommander (deck : Deck α) (step : DeckStep α) : Prop :=
  ∃ slot card, step = .edit (.addCard slot) ∧ deck.card? slot = some card ∧ card.role = .commander

/-! ## Steps -/

section

variable {cards : List (DeckCard α)}

theorem LedOnce.subset (once : LedOnce cards) {kept : List (DeckCard α)} (sub : kept ⊆ cards) :
    LedOnce kept :=
  fun card member => once card (sub member)

theorem LedOnce.filter (once : LedOnce cards) (keep : DeckCard α → Bool) :
    LedOnce (cards.filter keep) :=
  once.subset List.filter_sublist.subset

theorem LedOnce.append {others : List (DeckCard α)} (once : LedOnce cards)
    (onceMore : LedOnce others) : LedOnce (cards ++ others) :=
  List.forall_mem_append.mpr ⟨once, onceMore⟩

theorem LedOnce.changeFirst (once : LedOnce cards) {chosen : DeckCard α → Bool}
    {change : DeckCard α → DeckCard α}
    (kept : ∀ card, chosen card → card.role = .commander → card.count = 1 →
      (change card).count = 1)
    (role : ∀ card, (change card).role = card.role) :
    LedOnce (DeckBuilder.changeFirst chosen change cards) := by
  refine forall_mem_changeFirst (fun card isChosen held leads => ?_) once
  rw [role] at leads
  exact kept card isChosen leads (held leads)

end

section

variable [Coordinate α] {deck : Deck α}

/-- A copy is added to the first card of the slot, or a normal card is added. -/
theorem addCard_cases (deck : Deck α) (slot : Slot) :
    (∃ before card after, deck.card? slot = some card ∧ deck.cards = before ++ card :: after ∧
      (deck.addCard slot).cards =
        before ++ { card with count := addCounts card.count 1 } :: after) ∨
      (deck.card? slot = none ∧ (deck.addCard slot).cards =
        deck.cards ++ [.single slot.cardId slot.part (freePosition deck.cards)]) := by
  rw [addCard]
  split
  · rename_i present
    obtain ⟨before, card, after, split, here, earlier, changed⟩ :=
      exists_changeFirst_eq_append
        (fun card : DeckCard α => { card with count := addCounts card.count 1 }) present
    refine .inl ⟨before, card, after, ?_, split, changed⟩
    exact List.find?_eq_some_iff_append.mpr
      ⟨here, before, after, split, fun other member => by simp [earlier other member]⟩
  · rename_i absent
    refine .inr ⟨List.find?_eq_none.mpr fun card member here => absent ?_, rfl⟩
    exact List.any_eq_true.mpr ⟨card, member, here⟩

/-- Adding a card keeps the commander single exactly when its slot gains no copy. -/
theorem ledOnce_addCard_iff (once : LedOnce deck.cards) (slot : Slot) :
    LedOnce (deck.addCard slot).cards ↔
      ∀ card, deck.card? slot = some card → card.role ≠ .commander := by
  rcases addCard_cases deck slot with ⟨before, card, after, found, split, added⟩ | ⟨none, added⟩
  · rw [added, found]
    rw [split] at once
    obtain ⟨left, here, right⟩ :=
      List.forall_mem_append.mp once |>.imp_right List.forall_mem_cons.mp
    constructor
    · rintro onceMore _ ⟨⟩ leads
      -- One copy and one more are two.
      have two := onceMore _ (List.mem_append_right _ List.mem_cons_self) leads
      rw [here leads] at two
      exact absurd two (by decide : addCounts 1 1 ≠ 1)
    · intro follows
      refine List.forall_mem_append.mpr ⟨left, List.forall_mem_cons.mpr ⟨fun leads => ?_, right⟩⟩
      exact absurd leads (follows card rfl)
  · rw [added, none]
    refine iff_of_true (once.append ?_) nofun
    exact List.forall_mem_singleton.mpr nofun

theorem ledOnce_setCommander (once : LedOnce deck.cards) (cardId : String) :
    LedOnce (deck.setCommander cardId).cards :=
  (once.filter _).append (List.forall_mem_singleton.mpr fun _ => rfl)

theorem ledOnce_placeCommander {cards : List (DeckCard α)} (once : LedOnce cards)
    (commander : Card) : LedOnce (placeCommander cards commander) := by
  rw [placeCommander]
  split
  · exact once.changeFirst (fun _ _ _ _ => rfl) fun _ => rfl
  · exact once.append (List.forall_mem_singleton.mpr fun _ => rfl)

theorem ledOnce_applyImport (once : LedOnce deck.cards) (imported : DeckImport)
    (catalogue : Catalogue) : LedOnce (deck.applyImport imported catalogue).cards := by
  rw [applyImport_eq]
  refine LedOnce.subset (LedOnce.append ?_ ?_) (sortByName_perm catalogue _).subset
  · rw [ledCards]
    split
    · exact ledOnce_placeCommander (once.filter _) _
    · exact once.filter _
  · intro card member leads
    obtain ⟨entry, -, spot, rfl⟩ := exists_entry_of_mem_addedCards member
    cases leads

/-- **A step keeps the commander single exactly when it adds no copy to its slot.** -/
theorem ledOnce_take_iff (once : LedOnce deck.cards) (step : DeckStep α) :
    LedOnce (deck.take step).cards ↔ ¬ deck.CopiesCommander step := by
  have other (apart : ∀ slot, step ≠ .edit (.addCard slot)) : ¬ deck.CopiesCommander step := by
    rintro ⟨slot, -, rfl, -⟩
    exact apart slot rfl
  cases step with
  | applyImport imported catalogue =>
    exact iff_of_true (ledOnce_applyImport once imported catalogue) (other (by simp))
  | edit edit =>
    cases edit with
    | addCard slot =>
      refine (ledOnce_addCard_iff once slot).trans ⟨?_, ?_⟩
      · rintro follows ⟨_, card, ⟨⟩, found, leads⟩
        exact follows card found leads
      · intro spared card found leads
        exact spared ⟨slot, card, rfl, found, leads⟩
    | removeCard slot =>
      exact iff_of_true (once.subset List.eraseP_sublist.subset) (other (by simp))
    | setCommander cardId => exact iff_of_true (ledOnce_setCommander once cardId) (other (by simp))
    | addPhantom slot position =>
      refine iff_of_true (once.changeFirst ?_ ?_) (other (by simp))
      · exact fun _ _ _ single => single
      · exact fun _ => rfl
    | addZone id name => exact iff_of_true once (other (by simp))
    | ignoreCard cardId =>
      refine iff_of_true ?_ (other (by simp))
      rw [take, perform, ignoreCard]
      split <;> exact once
    | unignoreCard cardId => exact iff_of_true once (other (by simp))

/-- Along a run the commander stays single exactly when no step adds a copy to its slot. -/
theorem ledOnce_takeAll_iff (once : LedOnce deck.cards) (steps : List (DeckStep α)) :
    (∀ done, done <+: steps → LedOnce (deck.takeAll done).cards) ↔
      ∀ done step, done ++ [step] <+: steps → ¬ (deck.takeAll done).CopiesCommander step := by
  have last (done : List (DeckStep α)) (step : DeckStep α) :
      deck.takeAll (done ++ [step]) = (deck.takeAll done).take step := by
    rw [takeAll, List.foldl_append]
    rfl
  constructor
  · intro held done step before
    have after := held _ before
    rw [last] at after
    exact (ledOnce_take_iff (held done ((List.prefix_append _ _).trans before)) step).mp after
  · intro spared done
    induction done using List.reverseRecOn with
    | nil => exact fun _ => once
    | append_singleton done step ih =>
      intro before
      rw [last]
      exact (ledOnce_take_iff (ih ((List.prefix_append _ _).trans before)) step).mpr
        (spared done step before)

end

/-! ## The decklist -/

theorem exportLine_inj {first second : Nat} {name : String} :
    exportLine first name = exportLine second name ↔ first = second := by
  refine ⟨fun same => ?_, congrArg (exportLine · name)⟩
  have chars := congrArg String.toList same
  simpa only [exportLine, decimal, String.toList_append, String.toList_ofList,
    List.append_cancel_right_eq, Text.numeral_inj] using chars

/-- The decklist gives the count of the commander exactly when that is one. -/
theorem exportCommander_eq_iff {deck : Deck α} {catalogue : Catalogue} {card : DeckCard α}
    {found : Card} (leads : deck.commander? = some card)
    (known : catalogue.get? card.cardId = some found) :
    deck.exportCommander catalogue =
        "Commander\n" ++ exportLine card.count.toNat found.name ++ "\n" ↔ card.count = 1 := by
  have written : deck.exportCommander catalogue =
      "Commander\n" ++ exportLine 1 found.name ++ "\n" := by
    rw [exportCommander, leads, Option.bind_some, known]
  rw [written, String.append_left_inj, String.append_right_inj, exportLine_inj, ← UInt32.toNat_inj]
  exact eq_comm

/-- **A new deck is led by one copy until a copy is added.** Along any edits and imports every
commander has one copy exactly when none of them adds a copy to the slot of a commander; and the
decklist gives the count of the commander exactly when that is one. -/
theorem ledOnce_takeAll_empty_iff [Coordinate α] (id name : String) (steps : List (DeckStep α)) :
    let deck (done : List (DeckStep α)) : Deck α := (empty id name).takeAll done
    ((∀ done, done <+: steps → LedOnce (deck done).cards) ↔
      ∀ done step, done ++ [step] <+: steps → ¬ (deck done).CopiesCommander step) ∧
    ∀ catalogue card found, (deck steps).commander? = some card →
      catalogue.get? card.cardId = some found →
        ((deck steps).exportCommander catalogue =
          "Commander\n" ++ exportLine card.count.toNat found.name ++ "\n" ↔ card.count = 1) := by
  have new : LedOnce (empty id name : Deck α).cards := List.forall_mem_nil _
  exact ⟨ledOnce_takeAll_iff new steps, fun _ _ _ => exportCommander_eq_iff⟩

/-- A card that is made the commander and then added has two copies, of which the decklist gives
one. -/
theorem not_ledOnce_takeAll_empty :
    let deck := (empty "deck" "Deck" : Deck Int).takeAll
      [.edit (.setCommander "a"), .edit (.addCard ⟨"a", .main⟩)]
    deck.cards.map (fun card => (card.role, card.count)) = [(.commander, 2)] ∧
      ¬ LedOnce deck.cards ∧
      deck.exportCommander DeckImport.alphaAndBeta = "Commander\n1 Alpha\n\n" := by
  unfold LedOnce
  decide +kernel

end Deck

end DeckBuilder
