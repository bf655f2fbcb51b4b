import DeckBuilder.Proofs.Filter.Actions
import DeckBuilder.Proofs.Store.Files

/-! # Loading what was saved

Writing a session accepts any bucket and reading it back does not. So a session comes back, or is
refused as stale, if no action has named an unusual bucket. Once one has, loading forgets the
session and removes its file.
-/

namespace DeckBuilder.FilterStore

variable {store saved : FilterStore} {key : String} {filter : FilterSpec} {sort : SortSpec}
  {page : UInt64}

theorem load_of_save (isSaved : store.save key filter sort page = .ok saved)
    (current : FilterSpec) :
    saved.load key current =
      if filter.HasUsualBuckets then
        if filter.schemaHash = current.schemaHash then
          .ok (some (.ofSession filter sort page), saved)
        else .error (.staleFilter key filter.schemaHash current.schemaHash)
      else .ok (none, saved.delete (fileName key)) := by
  obtain ⟨valid, files⟩ := files_of_save isSaved
  have found : saved.files.get? (fileName key) =
      some (StoredFilter.ofSession filter sort page).text.toUTF8 := by
    rw [files, SortedMap.get?_insert, if_pos rfl]
  rw [load_of_get?_eq_text valid found]
  by_cases usual : filter.HasUsualBuckets <;>
    by_cases fresh : filter.schemaHash = current.schemaHash <;>
      simp only [StoredFilter.ofSession, usual, fresh, ↓reduceIte]

/-- **A session that users build is loaded back or is stale**, if the actions that lead to its
filter name usual buckets only. Otherwise loading it answers that there is none, whatever the
current filter is, and removes it. -/
theorem load_of_save_performAll {start : FilterSpec}
    (isStart : start = .standard ∨ ∃ cards, start = .ofCards cards) (actions : List FilterAction)
    (isSaved : store.save key (start.performAll actions) sort page = .ok saved)
    (current : FilterSpec) :
    saved.load key current =
      if ∀ bucket ∈ actions.filterMap FilterAction.bucket?, bucket ∈ ManaBucket.all then
        if (start.performAll actions).schemaHash = current.schemaHash then
          .ok (some (.ofSession (start.performAll actions) sort page), saved)
        else .error (.staleFilter key (start.performAll actions).schemaHash current.schemaHash)
      else .ok (none, saved.delete (fileName key)) := by
  have usual : (start.performAll actions).HasUsualBuckets ↔
      ∀ bucket ∈ actions.filterMap FilterAction.bucket?, bucket ∈ ManaBucket.all := by
    rcases isStart with rfl | ⟨cards, rfl⟩
    · exact FilterSpec.hasUsualBuckets_performAll_ofCards [] actions
    · exact FilterSpec.hasUsualBuckets_performAll_ofCards cards actions
  rw [load_of_save isSaved]
  simp only [usual]

/-- Actions after which the mana value four is required. -/
def requireFour : List FilterAction :=
  [.toggle (.color .red), .set (.manaValue (.exact 4)) .require, .toggleBack (.color .red)]

theorem load_of_save_requireFour :
    ∃ saved, empty.save "deck" (FilterSpec.standard.performAll requireFour) .standard 2 =
        .ok saved ∧
      saved.load "deck" .standard =
        .ok (some (.ofSession (FilterSpec.standard.performAll requireFour) .standard 2),
          saved) := by
  obtain ⟨saved, isSaved⟩ : ∃ saved, empty.save "deck" (FilterSpec.standard.performAll requireFour)
      .standard 2 = .ok saved :=
    ⟨_, (save_eq (by decide) _ _ _).trans (if_pos (by decide))⟩
  have usual : ∀ bucket ∈ requireFour.filterMap FilterAction.bucket?, bucket ∈ ManaBucket.all := by
    decide
  have fresh : (FilterSpec.standard.performAll requireFour).schemaHash =
      FilterSpec.standard.schemaHash :=
    FilterSpec.schemaHash_congr (by decide +kernel)
  refine ⟨saved, isSaved, ?_⟩
  rw [load_of_save_performAll (.inl rfl) requireFour isSaved, if_pos usual, if_pos fresh]

/-- An action after which the mana value ten, which has no bucket of its own, is required. -/
def requireTen : List FilterAction :=
  [.set (.manaValue (.exact 10)) .require]

theorem load_of_save_requireTen :
    ∃ saved, empty.save "deck" (FilterSpec.standard.performAll requireTen) .standard 0 =
        .ok saved ∧
      saved.files.contains (fileName "deck") = true ∧
      ∃ rest, saved.load "deck" (FilterSpec.standard.performAll requireTen) = .ok (none, rest) ∧
        rest.files.contains (fileName "deck") = false := by
  obtain ⟨saved, isSaved⟩ : ∃ saved, empty.save "deck" (FilterSpec.standard.performAll requireTen)
      .standard 0 = .ok saved :=
    ⟨_, (save_eq (by decide) _ _ _).trans (if_pos (by decide))⟩
  have unusual : ¬ (FilterSpec.standard.performAll requireTen).HasUsualBuckets := by
    decide +kernel
  refine ⟨saved, isSaved, ?_, _, (load_of_save isSaved _).trans (if_neg unusual), ?_⟩
  · rw [SortedMap.contains, (files_of_save isSaved).2, SortedMap.get?_insert, if_pos rfl]
    rfl
  · rw [SortedMap.contains, get?_delete, if_pos rfl]
    rfl

end DeckBuilder.FilterStore
