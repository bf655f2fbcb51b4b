import DeckBuilder.Proofs.Filter.Schema
import DeckBuilder.Proofs.Store.Reloading
import DeckBuilder.Session

/-! # Restoring the filter of a catalogue

A session saves the filter of its catalogue and restores it. What is restored is the filter that was
saved, as long as it has the schema of the catalogue: it does when its actions name what occurs on
the cards, apart from a rarity or a platform outside the usual ones, which no filter offers.
-/

namespace DeckBuilder

/-- The key names no rarity and no platform outside the usual ones. -/
def FilterKey.IsUsual (key : FilterKey) : Prop :=
  key ≠ .rarity .special ∧ key ≠ .game .other

instance (key : FilterKey) : Decidable key.IsUsual :=
  inferInstanceAs (Decidable (key ≠ .rarity .special ∧ key ≠ .game .other))

namespace Session

variable {session saved reopened : Session} {filter : FilterSpec} {sort : SortSpec} {page : UInt64}

/-- Saving the filter of a catalogue succeeds and changes the store only. -/
theorem exists_saveFilter_eq (session : Session) (filter : FilterSpec) (sort : SortSpec)
    (page : UInt64) :
    ∃ store, session.store.save filterKey filter sort page = .ok store ∧
      session.saveFilter filter sort page = .ok { session with store } := by
  have valid : FilterStore.isKey filterKey := by decide
  have short : filterKey.length ≤ 250 := by decide
  obtain ⟨store, isSaved⟩ : ∃ store, session.store.save filterKey filter sort page = .ok store :=
    ⟨_, (FilterStore.save_eq valid filter sort page).trans (if_pos short)⟩
  refine ⟨store, isSaved, ?_⟩
  rw [saveFilter, isSaved]
  rfl

/-- The filter that was saved is restored, by any session with the store, if it has the schema of
the catalogue, and is refused as stale if it has not. -/
theorem restoreFilter_eq (isSaved : session.saveFilter filter sort page = .ok saved)
    (usual : filter.HasUsualBuckets) (sameStore : reopened.store = saved.store) :
    reopened.restoreFilter =
      if filter.schemaHash = reopened.catalogue.filterSchema.schemaHash then
        .ok (.ofSession filter sort page, reopened)
      else
        .error (.staleFilter filterKey filter.schemaHash
          reopened.catalogue.filterSchema.schemaHash) := by
  obtain ⟨store, isStored, result⟩ := exists_saveFilter_eq session filter sort page
  rw [result] at isSaved
  cases isSaved
  have kept : reopened.store = store := sameStore
  have loaded := FilterStore.load_of_save isStored reopened.catalogue.filterSchema
  rw [if_pos usual, ← kept] at loaded
  rw [restoreFilter, loaded]
  split <;> rfl

/-- **A filter that is built from what occurs on the cards is restored**, with its sort
specification and its page, by any session with the same catalogue and the store, if no action names
a rarity or a platform outside the usual ones. -/
theorem restoreFilter_of_saveFilter (session : Session) (actions : List FilterAction)
    (sort : SortSpec) (page : UInt64)
    (borne : ∀ action ∈ actions, ∀ key ∈ action.key?,
      ∃ card ∈ session.catalogue.cards, card.Bears key)
    (usual : ∀ action ∈ actions, ∀ key ∈ action.key?, key.IsUsual) :
    ∃ saved,
      session.saveFilter (session.catalogue.filterSchema.performAll actions) sort page = .ok saved ∧
        ∀ reopened : Session, reopened.catalogue = session.catalogue →
          reopened.store = saved.store →
            reopened.restoreFilter =
              .ok (.ofSession (session.catalogue.filterSchema.performAll actions) sort page,
                reopened) := by
  have sameSchema : (session.catalogue.filterSchema.performAll actions).clear =
      session.catalogue.filterSchema.clear := by
    refine FilterSpec.clear_performAll fun action member key named => ?_
    obtain ⟨card, isCard, bears⟩ := borne action member key named
    obtain ⟨usualRarity, usualGame⟩ := usual action member key named
    exact FilterSpec.offers_ofCards_of_bears isCard bears usualRarity usualGame
  have usualBuckets : (session.catalogue.filterSchema.performAll actions).HasUsualBuckets :=
    (FilterSpec.hasUsualBuckets_congr sameSchema).mpr (FilterSpec.hasUsualBuckets_ofCards _)
  obtain ⟨store, -, isSaved⟩ := exists_saveFilter_eq session
    (session.catalogue.filterSchema.performAll actions) sort page
  refine ⟨_, isSaved, fun reopened sameCatalogue sameStore => ?_⟩
  rw [restoreFilter_eq isSaved usualBuckets sameStore, sameCatalogue, if_pos]
  exact FilterSpec.schemaHash_congr sameSchema

/-- A session with an empty store, whose only card has a special printing. -/
def ofShock : Session where
  catalogue := ⟨[.shock]⟩
  store := .empty
  storePath := "store"
  pageSize := 50

/-- Preferences that name what occurs on the card. -/
def usualRun : List FilterAction :=
  [.toggle (.cardType "Instant"), .set (.legality "modern" "Legal") .exclude,
    .toggleBack (.game .paper), .toggle (.manaValue (.exact 1))]

theorem restoreFilter_of_saveFilter_usualRun :
    (∀ action ∈ usualRun, ∀ key ∈ action.key?, ∃ card ∈ ofShock.catalogue.cards, card.Bears key) ∧
      (∀ action ∈ usualRun, ∀ key ∈ action.key?, key.IsUsual) ∧
      ∃ saved,
        ofShock.saveFilter (ofShock.catalogue.filterSchema.performAll usualRun) .standard 3 =
            .ok saved ∧
          restoreFilter { ofShock with store := saved.store } =
            .ok (.ofSession (ofShock.catalogue.filterSchema.performAll usualRun) .standard 3,
              { ofShock with store := saved.store }) := by
  have borne : ∀ action ∈ usualRun, ∀ key ∈ action.key?,
      ∃ card ∈ ofShock.catalogue.cards, card.Bears key := by
    decide +kernel
  have usual : ∀ action ∈ usualRun, ∀ key ∈ action.key?, key.IsUsual := by
    decide +kernel
  obtain ⟨saved, isSaved, restored⟩ :=
    restoreFilter_of_saveFilter ofShock usualRun .standard 3 borne usual
  exact ⟨borne, usual, saved, isSaved, restored { ofShock with store := saved.store } rfl rfl⟩

/-- A preference for the special rarity, which occurs on the card and which no filter offers. -/
def specialRun : List FilterAction :=
  [.toggle (.rarity .special)]

theorem restoreFilter_of_saveFilter_specialRun :
    (∀ action ∈ specialRun, ∀ key ∈ action.key?,
        ∃ card ∈ ofShock.catalogue.cards, card.Bears key) ∧
      ∃ saved,
        ofShock.saveFilter (ofShock.catalogue.filterSchema.performAll specialRun) .standard 0 =
            .ok saved ∧
          saved.restoreFilter =
            .error (.staleFilter filterKey
              (ofShock.catalogue.filterSchema.performAll specialRun).schemaHash
              ofShock.catalogue.filterSchema.schemaHash) := by
  refine ⟨by decide +kernel, ?_⟩
  obtain ⟨store, -, isSaved⟩ := exists_saveFilter_eq ofShock
    (ofShock.catalogue.filterSchema.performAll specialRun) .standard 0
  have usualBuckets : (ofShock.catalogue.filterSchema.performAll specialRun).HasUsualBuckets := by
    decide +kernel
  have stale : (ofShock.catalogue.filterSchema.performAll specialRun).schemaHash ≠
      ofShock.catalogue.filterSchema.schemaHash := by
    simp only [FilterSpec.schemaHash, FilterSpec.text, Json.compact, rollingHash,
      String.toList_ofList]
    decide +kernel
  exact ⟨_, isSaved, (restoreFilter_eq isSaved usualBuckets rfl).trans (if_neg stale)⟩

end Session

end DeckBuilder
