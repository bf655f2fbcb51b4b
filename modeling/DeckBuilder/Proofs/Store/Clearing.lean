import DeckBuilder.Proofs.Lists
import DeckBuilder.Proofs.Store.Files
import Mathlib.Data.List.TakeWhile

/-! # Clearing a store

A listing finds a key in every name that ends in `.json`, and loading and removing accept the valid
ones among them. Clearing removes the listed keys in their order up to the first that is not valid,
so it empties a store exactly when all names of that ending are those of valid keys. It never
touches any other file.
-/

namespace DeckBuilder.FilterStore

variable {store : FilterStore} {key : String}

/-! ## Valid keys -/

theorem eq_unreadable_of_decode {contents : ByteArray} {error : DeckError}
    (damaged : decode contents = .error error) : error = .unreadable := by
  unfold decode at damaged
  split at damaged
  · cases damaged
  · exact (Except.error.inj damaged).symm

/-- Loading may fail for a valid key, but not because of the key. -/
theorem load_ne_invalidKey (valid : isKey key) (current : FilterSpec) (refused : String) :
    store.load key current ≠ .error (.invalidKey refused) := by
  rw [load_eq valid]
  split
  · simp
  · rename_i error damaged
    obtain ⟨contents, -, damaged⟩ := Option.map_eq_some_iff.mp damaged
    simp [eq_unreadable_of_decode damaged]
  · simp
  · split <;> simp

theorem remove_of_mem_keys (listed : key ∈ store.keys) (valid : isKey key) :
    store.remove key = .ok (true, store.delete (fileName key)) := by
  rw [remove_eq valid, if_pos (mem_keys_iff.mp listed).2]

/-! ## One removal after the other -/

theorem removeAll_cons_of_not_isKey {keys : List String} (invalid : isKey key = false) :
    store.removeAll (key :: keys) = (store, .error (.invalidKey key)) := by
  rw [removeAll, remove_of_not_isKey invalid]

/-- Removing a valid key, whether it has a file or not, leaves its file out. -/
theorem exists_removeAll_cons (store : FilterStore) (keys : List String) (valid : isKey key) :
    ∃ next : FilterStore, store.removeAll (key :: keys) = next.removeAll keys ∧
      ∀ name, next.files.get? name =
        if name = fileName key then none else store.files.get? name := by
  rw [removeAll, remove_eq valid]
  by_cases present : store.files.contains (fileName key)
  · rw [if_pos present]
    refine ⟨_, rfl, fun name => ?_⟩
    simp only [get?_delete, eq_comm]
  · rw [if_neg present]
    refine ⟨_, rfl, fun name => ?_⟩
    split
    · rename_i same
      rw [same, ← Option.not_isSome_iff_eq_none]
      exact present
    · rfl

/-- Removals go on to the first key that is not valid. -/
theorem exists_removeAll_eq (store : FilterStore) (keys : List String) :
    ∃ rest : FilterStore,
      store.removeAll keys = (rest, (keys.dropWhile isKey).head?.elim (.ok ())
        fun key => .error (.invalidKey key)) ∧
      ∀ name, rest.files.get? name =
        if name ∈ (keys.takeWhile isKey).map fileName then none else store.files.get? name := by
  induction keys generalizing store with
  | nil => exact ⟨store, rfl, fun _ => rfl⟩
  | cons key keys ih =>
    cases valid : isKey key with
    | false =>
      rw [removeAll_cons_of_not_isKey valid, List.dropWhile_cons_of_neg (by simp [valid]),
        List.takeWhile_cons_of_neg (by simp [valid])]
      exact ⟨store, rfl, fun _ => rfl⟩
    | true =>
      obtain ⟨next, removed, without⟩ := exists_removeAll_cons store keys valid
      obtain ⟨rest, removedAll, left⟩ := ih next
      refine ⟨rest, ?_, fun name => ?_⟩
      · rw [removed, removedAll, List.dropWhile_cons_of_pos valid]
      · rw [left, without, List.takeWhile_cons_of_pos valid, List.map_cons]
        by_cases here : name = fileName key <;> simp [here]

/-! ## Clearing -/

theorem answer_clear (store : FilterStore) : store.clear.2 =
    (store.keys.dropWhile isKey).head?.elim (.ok ()) fun key => .error (.invalidKey key) := by
  obtain ⟨rest, removed, -⟩ := exists_removeAll_eq store store.keys
  rw [clear, removed]

theorem get?_clear (store : FilterStore) (name : String) : store.clear.1.files.get? name =
    if name ∈ (store.keys.takeWhile isKey).map fileName then none
    else store.files.get? name := by
  obtain ⟨rest, removed, left⟩ := exists_removeAll_eq store store.keys
  rw [clear, removed, left]

/-- From the first key on that is not valid, the keys stay. -/
theorem keys_clear (store : FilterStore) :
    store.clear.1.keys = store.keys.dropWhile isKey := by
  have sorted := store.pairwise_keys
  have distinct := SortedMap.nodup_of_pairwise_before sorted
  refine SortedMap.eq_of_pairwise_before (pairwise_keys _)
    (sorted.sublist (List.dropWhile_sublist _)) fun key => ?_
  have removed : fileName key ∈ (store.keys.takeWhile isKey).map fileName ↔
      key ∈ store.keys.takeWhile isKey :=
    List.mem_map_of_injective fun _ _ => fileName_injective
  have listed : key ∈ store.clear.1.keys ↔
      key ∈ store.keys ∧ key ∉ store.keys.takeWhile isKey := by
    rw [mem_keys_iff, mem_keys_iff, SortedMap.contains, SortedMap.contains, get?_clear]
    by_cases gone : key ∈ store.keys.takeWhile isKey
    · simp only [removed, gone, ↓reduceIte, Option.isSome_none, Bool.false_eq_true, and_false,
        not_true_eq_false]
    · simp only [removed, gone, ↓reduceIte, not_false_eq_true, and_true]
  rw [listed, Lists.mem_dropWhile_iff distinct]

/-- Names without the ending stay, with what they hold. -/
theorem get?_clear_of_other {name : String} (other : FileName.stem? "json" name = none) :
    store.clear.1.files.get? name = store.files.get? name := by
  rw [get?_clear, if_neg]
  intro removed
  obtain ⟨key, taken, rfl⟩ := List.mem_map.mp removed
  have listed := (List.takeWhile_sublist _).subset taken
  rw [stem?_eq_some_iff.mpr ⟨(mem_keys_iff.mp listed).1, rfl⟩] at other
  cases other

/-- Clearing does what it is for: loading and removing accept every key that is listed, and clearing
succeeds, leaves no key and touches no other file. -/
structure Clears (store : FilterStore) : Prop where
  loads : ∀ key ∈ store.keys, ∀ current, store.load key current ≠ .error (.invalidKey key)
  removes : ∀ key ∈ store.keys, ∃ rest, store.remove key = .ok (true, rest)
  succeeds : store.clear.2 = .ok ()
  empties : store.clear.1.keys = []
  spares : ∀ name, FileName.stem? "json" name = none →
    store.clear.1.files.get? name = store.files.get? name

theorem clears_of_isKey (valid : ∀ key ∈ store.keys, isKey key) : store.Clears := by
  have none : store.keys.dropWhile isKey = [] := List.dropWhile_eq_nil_iff.mpr valid
  refine ⟨?_, ?_, ?_, ?_, fun name => get?_clear_of_other⟩
  · exact fun key listed current => load_ne_invalidKey (valid key listed) current key
  · exact fun key listed => ⟨_, remove_of_mem_keys listed (valid key listed)⟩
  · rw [answer_clear, none]
    rfl
  · rw [keys_clear, none]

/-- **Clearing empties a store exactly when its listed keys are valid.** A store lists every text
for which there is a file with the text and `.json` as its name. Loading and removing refuse those
that are no valid keys, and clearing stops at the first of them: it and the keys behind it stay,
valid ones included. Whatever happens, files of other names stay as they are. -/
theorem clears_iff (store : FilterStore) :
    (store.Clears ↔ ∀ key ∈ store.keys, isKey key) ∧
    (∀ key, key ∈ store.keys ↔ key ≠ "" ∧ store.files.contains (key ++ ".json")) ∧
    (∀ key, isKey key = false → store.remove key = .error (.invalidKey key) ∧
      ∀ current, store.load key current = .error (.invalidKey key)) ∧
    store.clear.1.keys = store.keys.dropWhile isKey ∧
    store.clear.2 = (store.keys.dropWhile isKey).head?.elim (.ok ())
      (fun key => .error (.invalidKey key)) ∧
    ∀ name, FileName.stem? "json" name = none →
      store.clear.1.files.get? name = store.files.get? name := by
  refine ⟨⟨?_, clears_of_isKey⟩, ?_, ?_, keys_clear store, answer_clear store,
    fun name => get?_clear_of_other⟩
  · intro clears key listed
    by_contra invalid
    exact clears.loads key listed .standard
      (load_of_not_isKey (Bool.eq_false_iff.mpr invalid) _)
  · intro key
    rw [mem_keys_iff, ne_eq, String.toList_eq_nil_iff]
    rfl
  · exact fun key invalid => ⟨remove_of_not_isKey invalid, load_of_not_isKey invalid⟩

/-- A store with a file whose name has two points, and with a session. -/
def strayStore : FilterStore :=
  ⟨(empty.files.insert "notes.old.json" "{}".toUTF8).insert "session.json"
    (StoredFilter.ofSession .standard .standard 0).text.toUTF8⟩

/-- The file with two points is in the way of clearing, and the session stays. -/
theorem not_clears_strayStore :
    (∃ store, empty.write "notes.old.json" "{}".toUTF8 = .ok store ∧
      store.save "session" .standard .standard 0 = .ok strayStore) ∧
    ¬ strayStore.Clears ∧ strayStore.clear.2 = .error (.invalidKey "notes.old") ∧
      strayStore.clear.1.keys = ["notes.old", "session"] := by
  have listed : strayStore.keys = ["notes.old", "session"] := by decide +kernel
  have left : strayStore.keys.dropWhile isKey = ["notes.old", "session"] := by
    rw [listed]
    decide
  have answer : strayStore.clear.2 = .error (.invalidKey "notes.old") := by
    rw [answer_clear, left]
    rfl
  refine ⟨⟨_, if_pos (by decide), (save_eq (by decide) _ _ _).trans (if_pos (by decide))⟩, ?_,
    answer, (keys_clear _).trans left⟩
  intro clears
  have succeeds := clears.succeeds
  rw [answer] at succeeds
  cases succeeds

end DeckBuilder.FilterStore
