import DeckBuilder.Proofs.Decklist.Applying

/-! # Applying an import again

Applying an import again drops the cards that it has put into the main deck and adds them anew. What
it keeps is sorted by then, but free spots do not depend on the order of the cards, and cards of one
name come in the same order again.
-/

namespace DeckBuilder.Deck

open DeckImport (alphaAndBeta)
open scoped ExactCoordinates

variable {α : Type} [Coordinate α] {kept cards : List (DeckCard α)}

/-- Where one card at most has led, a commander that has taken over does so again without a
change. -/
theorem placeCommander_eq_self (single : kept.countP (·.role == .commander) ≤ 1)
    {commander : Card} (placed : cards.Perm (placeCommander kept commander)) :
    placeCommander cards commander = cards := by
  obtain ⟨leader, taken, leads, -, parted⟩ := exists_placeCommander_perm single commander
  have perm := placed.trans parted
  have present : cards.any (·.role == .commander) := by
    have isCard : leader ∈ cards :=
      perm.mem_iff.mpr (List.mem_append_right _ (List.mem_singleton_self leader))
    exact List.any_eq_true.mpr ⟨leader, isCard, beq_iff_eq.mpr leads⟩
  rw [placeCommander, if_pos present]
  refine changeFirst_eq_self fun card member isLeader => ?_
  rcases List.mem_append.mp (perm.mem_iff.mp member) with other | last
  · have isOther := (List.mem_filter.mp other).2
    simp [isLeader] at isOther
  · rw [List.mem_singleton.mp last]
    exact taken

theorem ledCards_eq_self (single : kept.countP (·.role == .commander) ≤ 1)
    {imported : DeckImport} (led : cards.Perm (ledCards imported kept)) :
    ledCards imported cards = cards := by
  rw [ledCards] at led ⊢
  split
  · rename_i commander brought
    rw [brought] at led
    exact placeCommander_eq_self single led
  · rfl

/-- **Applying an import again changes nothing** in a deck that one card at most has led. -/
theorem applyImport_applyImport {deck : Deck α}
    (single : deck.cards.countP (·.role == .commander) ≤ 1) (imported : DeckImport)
    (catalogue : Catalogue) :
    (deck.applyImport imported catalogue).applyImport imported catalogue =
      deck.applyImport imported catalogue := by
  let kept := deck.cards.filter fun card => !card.isMainNormal
  let led := ledCards imported kept
  let main := addedCards led imported.mainCards
  have sorted : (sortByName catalogue led).Perm led := sortByName_perm catalogue led
  have keptAgain : (sortByName catalogue (led ++ main)).filter (fun card => !card.isMainNormal) =
      sortByName catalogue led := by
    rw [filter_sortByName, filter_not_isMainNormal_append
      (not_isMainNormal_ledCards imported deck.cards)
      fun card => isMainNormal_of_mem_addedCards]
  have ledAgain : ledCards imported (sortByName catalogue led) = sortByName catalogue led :=
    ledCards_eq_self (List.filter_sublist.countP_le.trans single) sorted
  have cardsAgain : sortByName catalogue (sortByName catalogue led ++
      addedCards (sortByName catalogue led) imported.mainCards) =
        sortByName catalogue (led ++ main) := by
    rw [addedCards_perm sorted, sortByName_append]
  have once : deck.applyImport imported catalogue =
      { deck with cards := sortByName catalogue (led ++ main) } :=
    applyImport_eq deck imported catalogue
  rw [once, applyImport_eq]
  dsimp only
  rw [keptAgain, ledAgain, cardsAgain]

/-- Beta takes over from Alpha, which joins the main deck next to a companion. -/
theorem applyImport_applyImport_ledByAlpha :
    let imported := DeckImport.ofText "Commander\n1 Beta\nDeck\n3 Alpha\n" alphaAndBeta
    ledByAlpha.cards.countP (·.role == .commander) ≤ 1 ∧
      (ledByAlpha.applyImport imported alphaAndBeta).applyImport imported alphaAndBeta =
        ledByAlpha.applyImport imported alphaAndBeta := by
  have single : ledByAlpha.cards.countP (·.role == .commander) ≤ 1 := by decide +kernel
  exact ⟨single, applyImport_applyImport single _ alphaAndBeta⟩

end DeckBuilder.Deck
