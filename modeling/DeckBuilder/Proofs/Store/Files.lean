import DeckBuilder.Disk.Basic
import DeckBuilder.Proofs.SortedMap
import DeckBuilder.Proofs.Store.Keys
import DeckBuilder.Proofs.Store.StoredFilter

/-! # What a store does with its files

An operation under a valid key looks at the file of the key and at no other one, and an operation
under any other key is refused. A file with the text of a session counts as the session if the
buckets of its filter are usual. Otherwise it counts as damaged, and loading removes it.
-/

namespace DeckBuilder

section

variable {α β ε : Type}

theorem ok_bind (value : α) (next : α → Except ε β) : Except.ok value >>= next = next value :=
  rfl

theorem error_bind (error : ε) (next : α → Except ε β) :
    Except.error error >>= next = Except.error error :=
  rfl

end

namespace FilterStore

variable {store : FilterStore} {key : String}

theorem get?_delete (store : FilterStore) (name other : String) :
    (store.delete name).files.get? other = if name = other then none else store.files.get? other :=
  SortedMap.get?_erase store.files name other

theorem file_of_isKey (valid : isKey key) : file key = .ok (fileName key) :=
  if_pos valid

theorem file_of_not_isKey (invalid : isKey key = false) : file key = .error (.invalidKey key) := by
  simp only [file, invalid, Bool.false_eq_true, ↓reduceIte]

/-! ## Listing -/

theorem pairwise_keys (store : FilterStore) : store.keys.Pairwise OrderKey.Before :=
  SortedMap.pairwise_distinctSorted _

theorem mem_keys_iff :
    key ∈ store.keys ↔ key.toList ≠ [] ∧ store.files.contains (fileName key) := by
  rw [keys, SortedMap.mem_distinctSorted, List.mem_filterMap, SortedMap.contains,
    SortedMap.isSome_get?_iff]
  simp only [stem?_eq_some_iff]
  constructor
  · rintro ⟨name, present, named, rfl⟩
    exact ⟨named, present⟩
  · rintro ⟨named, present⟩
    exact ⟨_, present, named, rfl⟩

/-! ## Saving and removing -/

theorem save_eq (valid : isKey key) (filter : FilterSpec) (sort : SortSpec) (page : UInt64) :
    store.save key filter sort page =
      if key.length ≤ 250 then
        .ok ⟨store.files.insert (fileName key)
          (StoredFilter.ofSession filter sort page).text.toUTF8⟩
      else .error .unwritable := by
  simp only [save, file_of_isKey valid, ok_bind, write, isUsable_fileName valid, decide_eq_true_eq]

theorem save_of_not_isKey (invalid : isKey key = false) (filter : FilterSpec) (sort : SortSpec)
    (page : UInt64) : store.save key filter sort page = .error (.invalidKey key) := by
  rw [save, file_of_not_isKey invalid, error_bind]

/-- A session is only saved under a valid key, and only the file of the key changes. -/
theorem files_of_save {saved : FilterStore} {filter : FilterSpec} {sort : SortSpec} {page : UInt64}
    (isSaved : store.save key filter sort page = .ok saved) :
    isKey key ∧ saved.files = store.files.insert (fileName key)
      (StoredFilter.ofSession filter sort page).text.toUTF8 := by
  cases valid : isKey key with
  | false =>
    rw [save_of_not_isKey valid] at isSaved
    cases isSaved
  | true =>
    rw [save_eq valid] at isSaved
    split at isSaved
    · cases isSaved
      exact ⟨rfl, rfl⟩
    · cases isSaved

theorem remove_eq (valid : isKey key) :
    store.remove key =
      if store.files.contains (fileName key) then .ok (true, store.delete (fileName key))
      else .ok (false, store) := by
  rw [remove, file_of_isKey valid, ok_bind]
  rfl

theorem remove_of_not_isKey (invalid : isKey key = false) :
    store.remove key = .error (.invalidKey key) := by
  rw [remove, file_of_not_isKey invalid, error_bind]

theorem rest_of_remove {answer : Bool × FilterStore} (removed : store.remove key = .ok answer) :
    answer.2 = store ∨ answer.2 = store.delete (fileName key) := by
  cases valid : isKey key with
  | false =>
    rw [remove_of_not_isKey valid] at removed
    cases removed
  | true =>
    rw [remove_eq valid] at removed
    split at removed
    · cases removed
      exact .inr rfl
    · cases removed
      exact .inl rfl

/-! ## Loading -/

theorem load_of_not_isKey (invalid : isKey key = false) (current : FilterSpec) :
    store.load key current = .error (.invalidKey key) := by
  rw [load, file_of_not_isKey invalid, error_bind]

/-- What loading does depends on what the file of the key is read as. -/
theorem load_eq (valid : isKey key) (current : FilterSpec) :
    store.load key current =
      match (store.files.get? (fileName key)).map decode with
      | none => .ok (none, store)
      | some (.error error) => .error error
      | some (.ok none) => .ok (none, store.delete (fileName key))
      | some (.ok (some stored)) =>
        if stored.hash = current.schemaHash then .ok (some stored, store)
        else .error (.staleFilter key stored.hash current.schemaHash) := by
  rw [load, file_of_isKey valid, ok_bind]
  cases store.files.get? (fileName key) with
  | none => rfl
  | some contents =>
    dsimp only [Option.map_some]
    rcases decode contents with error | (none | stored)
    · rw [error_bind]
    · rfl
    · by_cases fresh : stored.hash = current.schemaHash
      · simp only [ok_bind, fresh, ↓reduceIte]
        rfl
      · simp only [ok_bind, fresh, ↓reduceIte]
        rfl

theorem rest_of_load {current : FilterSpec} {answer : Option StoredFilter × FilterStore}
    (loaded : store.load key current = .ok answer) :
    answer.2 = store ∨ answer.2 = store.delete (fileName key) := by
  cases valid : isKey key with
  | false =>
    rw [load_of_not_isKey valid] at loaded
    cases loaded
  | true =>
    rw [load_eq valid] at loaded
    split at loaded
    · cases loaded
      exact .inl rfl
    · cases loaded
    · cases loaded
      exact .inr rfl
    · split at loaded
      · cases loaded
        exact .inl rfl
      · cases loaded

theorem decode_text (stored : StoredFilter) :
    decode stored.text.toUTF8 =
      .ok (if stored.filter.HasUsualBuckets then some stored else none) := by
  rw [decode, fromUTF8?_toUTF8, ← StoredFilter.ofText?_text]

/-- What loading does when the file of the key has the text of a session. -/
theorem load_of_get?_eq_text {stored : StoredFilter} (valid : isKey key)
    (found : store.files.get? (fileName key) = some stored.text.toUTF8) (current : FilterSpec) :
    store.load key current =
      if stored.filter.HasUsualBuckets then
        if stored.hash = current.schemaHash then .ok (some stored, store)
        else .error (.staleFilter key stored.hash current.schemaHash)
      else .ok (none, store.delete (fileName key)) := by
  rw [load_eq valid, found, Option.map_some, decode_text]
  by_cases usual : stored.filter.HasUsualBuckets <;> simp only [usual, ↓reduceIte]

end FilterStore

end DeckBuilder
