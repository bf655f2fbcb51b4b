import DeckBuilder.Deck.Warnings
import DeckBuilder.Proofs.Decklist.Applying
import DeckBuilder.Proofs.Decklist.RoundTrip

/-! # Copy limits of imported decks

Counts are cut to the copy limits while the lines of a decklist are merged. The cards that an import
brings to the main deck have no phantoms, and they take the place of all normal cards there, so the
deck that it leaves keeps to the limits.
-/

namespace DeckBuilder

open scoped ExactCoordinates

theorem CopyLimit.admits_cut (limit : CopyLimit) (count : UInt32) :
    limit.Admits (limit.cut count) := by
  cases limit with
  | unlimited => exact .unlimited count
  | limited most =>
    rw [cut]
    split
    · rename_i within
      exact .limited within
    · exact .limited (UInt32.le_refl most)

theorem addCounts_zero (count : UInt32) : addCounts count 0 = count := by
  have small : count.toNat ≤ UInt32.size - 1 := Nat.le_sub_one_of_lt count.toNat_lt
  rw [addCounts, UInt32.toNat_zero, Nat.add_zero, Nat.min_eq_left small, UInt32.ofNat_toNat]

namespace DeckWarning

variable {warning : DeckWarning} {card : Card}

theorem not_admits_of_mem_ofCopies {copies : UInt32} (member : warning ∈ ofCopies card copies) :
    ¬ card.allowedCopies.Admits copies := by
  rw [ofCopies] at member
  cases limit : card.allowedCopies with
  | unlimited => simp [limit] at member
  | limited most =>
    rintro ⟨within⟩
    simp [limit, UInt32.not_lt.mpr within] at member

theorem kind_of_mem_ofIdentity {commander : Card} (member : warning ∈ ofIdentity card commander) :
    warning.kind = .outsideColorIdentity := by
  rw [ofIdentity] at member
  split at member
  · cases member
  · rw [List.mem_singleton.mp member]
    rfl

end DeckWarning

namespace DeckImport

variable {catalogue : Catalogue} {imported : DeckImport}

/-- All cards of the main deck are in the catalogue, with counts that their limits admit. -/
def KeepsLimits (imported : DeckImport) (catalogue : Catalogue) : Prop :=
  ∀ entry ∈ imported.cards, entry.1 ∈ catalogue.cards ∧ entry.1.allowedCopies.Admits entry.2

/-- Merged copies of a card are cut by the limit of the line. In a catalogue with distinct IDs this
is the limit of the card that is listed already. -/
theorem keepsLimits_count (distinct : (catalogue.cards.map (·.id)).Nodup)
    (keeps : imported.KeepsLimits catalogue) {card : Card} (supplied : card ∈ catalogue.cards)
    (copies : UInt32) : (imported.count card copies).KeepsLimits catalogue := by
  intro entry member
  rw [count] at member
  split at member
  · rcases exists_of_mem_changeFirst member with before | ⟨other, listed, sameId, rfl⟩
    · exact keeps entry before
    · have inCatalogue := (keeps other listed).1
      have same : other.1 = card :=
        List.inj_on_of_nodup_map distinct inCatalogue supplied (beq_iff_eq.mp sameId)
      subst same
      refine ⟨inCatalogue, ?_⟩
      dsimp only
      exact CopyLimit.admits_cut _ _
  · rcases List.mem_append.mp member with before | new
    · exact keeps entry before
    · rw [List.mem_singleton.mp new]
      refine ⟨supplied, ?_⟩
      dsimp only
      exact CopyLimit.admits_cut _ copies

theorem keepsLimits_ofText (distinct : (catalogue.cards.map (·.id)).Nodup) (text : String) :
    (ofText text catalogue).KeepsLimits catalogue := by
  refine cards_ofText_induction (motive := fun cards : List (Card × UInt32) =>
    ∀ entry ∈ cards, entry.1 ∈ catalogue.cards ∧ entry.1.allowedCopies.Admits entry.2) ?_ ?_ text
  · intro imported card supplied copies keeps
    exact keepsLimits_count distinct keeps supplied copies
  · intro entry member
    cases member

end DeckImport

namespace Deck

variable {α : Type} [Coordinate α] {deck : Deck α} {catalogue : Catalogue}

/-! ## The main deck after an import -/

/-- The normal cards of the main deck are those that the import brings. -/
theorem exists_entry_of_mem_applyImport {imported : DeckImport} {card : DeckCard α}
    (member : card ∈ (deck.applyImport imported catalogue).cards) (normal : card.isMainNormal) :
    ∃ entry ∈ imported.cards,
      card.cardId = entry.1.id ∧ card.count = entry.2 ∧ card.phantoms = [] := by
  rw [applyImport_eq] at member
  rcases List.mem_append.mp ((sortByName_perm catalogue _).mem_iff.mp member) with stays | added
  · have special := not_isMainNormal_ledCards imported deck.cards card stays
    simp [special] at normal
  · obtain ⟨entry, isMain, spot, rfl⟩ := exists_entry_of_mem_addedCards added
    exact ⟨entry, List.mem_of_mem_filter isMain, rfl, rfl, rfl⟩

/-! ## Warnings -/

section

omit [Coordinate α]

/-- A warning about copies is about a normal card of the main deck with more copies than the limit
of the card in the catalogue admits. -/
theorem exists_exceeded_of_mem_warnings {warning : DeckWarning} {copies allowed : UInt32}
    (member : warning ∈ deck.warnings catalogue)
    (kind : warning.kind = .tooManyCopies copies allowed) :
    ∃ deckCard ∈ deck.cards, deckCard.isMainNormal ∧ ∃ card,
      catalogue.get? deckCard.cardId = some card ∧
        ¬ card.allowedCopies.Admits (copiesOf deckCard) := by
  rw [warnings] at member
  split at member
  · cases member
  · obtain ⟨deckCard, isNormal, warns⟩ := List.mem_flatMap.mp member
    obtain ⟨isCard, normal⟩ := List.mem_filter.mp isNormal
    refine ⟨deckCard, isCard, normal, ?_⟩
    split at warns
    · rename_i card found
      rcases List.mem_append.mp warns with exceeds | outside
      · exact ⟨card, found, DeckWarning.not_admits_of_mem_ofCopies exceeds⟩
      · rw [DeckWarning.kind_of_mem_ofIdentity outside] at kind
        cases kind
    · cases warns

end

/-- **Imported decks keep to the copy limits.** Whatever a decklist repeats and counts, in a
catalogue with distinct IDs every normal card of the main deck that an import leaves is a card of
the catalogue whose limit admits its copies, so that no warning is about copies. -/
theorem applyImport_keeps_limits (distinct : (catalogue.cards.map (·.id)).Nodup) (deck : Deck α)
    (text : String) :
    let filled := deck.applyImport (.ofText text catalogue) catalogue
    (∀ deckCard ∈ filled.cards, deckCard.isMainNormal → ∃ card,
      catalogue.get? deckCard.cardId = some card ∧
        card.allowedCopies.Admits (copiesOf deckCard)) ∧
      ∀ warning ∈ filled.warnings catalogue, ∀ copies allowed,
        warning.kind ≠ .tooManyCopies copies allowed := by
  intro filled
  have admitted (deckCard : DeckCard α) (member : deckCard ∈ filled.cards)
      (normal : deckCard.isMainNormal) : ∃ card, catalogue.get? deckCard.cardId = some card ∧
        card.allowedCopies.Admits (copiesOf deckCard) := by
    obtain ⟨entry, isEntry, sameId, sameCount, bare⟩ :=
      exists_entry_of_mem_applyImport member normal
    obtain ⟨supplied, admits⟩ := DeckImport.keepsLimits_ofText distinct text entry isEntry
    refine ⟨entry.1, ?_, ?_⟩
    · rw [sameId]
      exact Catalogue.get?_id distinct supplied
    · rw [copiesOf, bare, sameCount]
      exact (addCounts_zero entry.2).symm ▸ admits
  refine ⟨admitted, fun warning member copies allowed kind => ?_⟩
  obtain ⟨deckCard, isCard, normal, card, found, exceeded⟩ :=
    exists_exceeded_of_mem_warnings member kind
  obtain ⟨same, alsoFound, admits⟩ := admitted deckCard isCard normal
  rw [found, Option.some_inj] at alsoFound
  exact exceeded (alsoFound ▸ admits)

/-- Five copies of Alpha, in two lines and with another commander. -/
theorem applyImport_keeps_limits_ledByAlpha :
    let filled := ledByAlpha.applyImport
      (.ofText "Commander\n1 Beta\nDeck\n3 Alpha\n2 Alpha\n" DeckImport.alphaAndBeta)
      DeckImport.alphaAndBeta
    (DeckImport.alphaAndBeta.cards.map (·.id)).Nodup ∧
      (∀ deckCard ∈ filled.cards, deckCard.isMainNormal → ∃ card,
        DeckImport.alphaAndBeta.get? deckCard.cardId = some card ∧
          card.allowedCopies.Admits (copiesOf deckCard)) ∧
      ∀ warning ∈ filled.warnings DeckImport.alphaAndBeta, ∀ copies allowed,
        warning.kind ≠ .tooManyCopies copies allowed := by
  have distinct : (DeckImport.alphaAndBeta.cards.map (·.id)).Nodup := by decide +kernel
  exact ⟨distinct, applyImport_keeps_limits distinct ledByAlpha _⟩

end Deck

end DeckBuilder
