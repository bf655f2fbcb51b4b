import DeckBuilder.Proofs.Store.Files

/-! # A filter store is a finite map

From the empty directory on, a store answers every request as the finite map from keys to the
sessions saved under them does. The map knows nothing of files, names and texts: each live session
has one file, which holds its text and is named for its key, and there are no other files.
-/

namespace DeckBuilder

/-- A request to a filter store. -/
inductive StoreRequest where
  | save (key : String) (filter : FilterSpec) (sort : SortSpec) (page : UInt64)
  | load (key : String) (current : FilterSpec)
  | remove (key : String)
  | keys
  | clear

/-- The answer to a request that succeeds. -/
inductive StoreReply where
  | done
  | session (stored? : Option StoredFilter)
  | removed (existed : Bool)
  | keys (keys : List String)
deriving DecidableEq

namespace StoreRequest

/-- The key that a request names. -/
def key? : StoreRequest → Option String
  | save key _ _ _ | load key _ | remove key => some key
  | keys | clear => none

/-- A request that asks and changes nothing. -/
def Reads : StoreRequest → Prop
  | load _ _ | keys => True
  | save _ _ _ _ | remove _ | clear => False

/-- What a request saves, if anything, keeps to the usual mana value buckets. -/
def SavesUsual : StoreRequest → Prop
  | save _ filter _ _ => filter.HasUsualBuckets
  | load _ _ | remove _ | keys | clear => True

instance (request : StoreRequest) : Decidable request.SavesUsual := by
  cases request <;> unfold SavesUsual <;> infer_instance

end StoreRequest

/-- The answer of a store to a request, and the store after it. What fails leaves the store as it
was, except that clearing keeps its removals so far. -/
def FilterStore.perform (store : FilterStore) :
    StoreRequest → Except DeckError StoreReply × FilterStore
  | .save key filter sort page =>
    match store.save key filter sort page with
    | .ok saved => (.ok .done, saved)
    | .error error => (.error error, store)
  | .load key current =>
    match store.load key current with
    | .ok (stored?, rest) => (.ok (.session stored?), rest)
    | .error error => (.error error, store)
  | .remove key =>
    match store.remove key with
    | .ok (existed, rest) => (.ok (.removed existed), rest)
    | .error error => (.error error, store)
  | .keys => (.ok (.keys store.keys), store)
  | .clear => (store.clear.2.map fun _ => .done, store.clear.1)

def FilterStore.after (store : FilterStore) (history : List StoreRequest) : FilterStore :=
  history.foldl (fun store request => (store.perform request).2) store

/-- The live sessions by key. -/
abbrev SessionMap : Type :=
  SortedMap String StoredFilter

namespace SessionMap

/-- The answer of a finite map to a request, and the map after it. A session is not saved under a
key that is too long for a file name. -/
def perform (live : SessionMap) : StoreRequest → Except DeckError StoreReply × SessionMap
  | .save key filter sort page =>
    if FilterStore.isKey key then
      if key.length ≤ 250 then (.ok .done, live.insert key (.ofSession filter sort page))
      else (.error .unwritable, live)
    else (.error (.invalidKey key), live)
  | .load key current =>
    if FilterStore.isKey key then
      match live.get? key with
      | none => (.ok (.session none), live)
      | some stored =>
        if stored.hash = current.schemaHash then (.ok (.session (some stored)), live)
        else (.error (.staleFilter key stored.hash current.schemaHash), live)
    else (.error (.invalidKey key), live)
  | .remove key =>
    if FilterStore.isKey key then (.ok (.removed (live.contains key)), live.erase key)
    else (.error (.invalidKey key), live)
  | .keys => (.ok (.keys live.keys), live)
  | .clear => (.ok .done, ∅)

def after (live : SessionMap) (history : List StoreRequest) : SessionMap :=
  history.foldl (fun live request => (live.perform request).2) live

end SessionMap

namespace FilterStore

/-- The files of a store are those of the live sessions, which can all be read back. -/
structure Represents (store : FilterStore) (live : SessionMap) : Prop where
  files : ∀ key, isKey key →
    store.files.get? (fileName key) = (live.get? key).map (·.text.toUTF8)
  named : ∀ name ∈ store.files.keys, ∃ key, isKey key ∧ fileName key = name
  sound : ∀ key stored, live.get? key = some stored → isKey key ∧ stored.filter.HasUsualBuckets

variable {store : FilterStore} {live : SessionMap}

theorem represents_empty : empty.Represents ∅ :=
  ⟨fun _ _ => rfl, fun _ member => (List.not_mem_nil member).elim, fun _ _ none => by cases none⟩

/-! ## One operation at a time -/

namespace Represents

theorem congr {other : SessionMap} (represents : store.Represents live)
    (same : ∀ key, live.get? key = other.get? key) : store.Represents other where
  files key valid := (represents.files key valid).trans (by rw [same])
  named := represents.named
  sound key stored found := represents.sound key stored ((same key).trans found)

theorem insert (represents : store.Represents live) {key : String} (valid : isKey key)
    {stored : StoredFilter} (usual : stored.filter.HasUsualBuckets) :
    Represents ⟨store.files.insert (fileName key) stored.text.toUTF8⟩ (live.insert key stored) where
  files other otherValid := by
    rw [SortedMap.get?_insert, SortedMap.get?_insert]
    by_cases same : key = other
    · simp [same]
    · have apart : fileName key ≠ fileName other := fun equal => same (fileName_injective equal)
      rw [if_neg same, if_neg apart, represents.files other otherValid]
  named name member := by
    rcases SortedMap.mem_keys_insert.mp member with rfl | earlier
    · exact ⟨key, valid, rfl⟩
    · exact represents.named name earlier
  sound other found isFound := by
    rw [SortedMap.get?_insert] at isFound
    split at isFound
    · rename_i same
      cases isFound
      exact ⟨same ▸ valid, usual⟩
    · exact represents.sound other found isFound

theorem delete (represents : store.Represents live) (key : String) :
    (store.delete (fileName key)).Represents (live.erase key) where
  files other valid := by
    rw [get?_delete, SortedMap.get?_erase]
    by_cases same : key = other
    · simp [same]
    · have apart : fileName key ≠ fileName other := fun equal => same (fileName_injective equal)
      rw [if_neg same, if_neg apart, represents.files other valid]
  named name member := by
    refine represents.named name (SortedMap.isSome_get?_iff.mp ?_)
    have present := SortedMap.isSome_get?_iff.mpr member
    rw [get?_delete] at present
    split at present
    · cases present
    · exact present
  sound other found isFound := by
    rw [SortedMap.get?_erase] at isFound
    split at isFound
    · cases isFound
    · exact represents.sound other found isFound

theorem remove (represents : store.Represents live) {key : String} (valid : isKey key) :
    ∃ rest, store.remove key = .ok (live.contains key, rest) ∧
      rest.Represents (live.erase key) := by
  have present : store.files.contains (fileName key) = live.contains key := by
    rw [SortedMap.contains, SortedMap.contains, represents.files key valid, Option.isSome_map]
  rw [remove_eq valid, present]
  cases found : live.contains key with
  | true => exact ⟨_, rfl, represents.delete key⟩
  | false =>
    -- Nothing is removed from the store, and nothing is there to be erased from the map.
    refine ⟨store, rfl, represents.congr fun other => ?_⟩
    rw [SortedMap.get?_erase]
    split
    · rename_i same
      rw [SortedMap.contains, same, Option.isSome_eq_false_iff, Option.isNone_iff_eq_none] at found
      exact found
    · rfl

theorem load (represents : store.Represents live) {key : String} (valid : isKey key)
    (current : FilterSpec) :
    store.load key current =
      match live.get? key with
      | none => .ok (none, store)
      | some stored =>
        if stored.hash = current.schemaHash then .ok (some stored, store)
        else .error (.staleFilter key stored.hash current.schemaHash) := by
  have file := represents.files key valid
  cases found : live.get? key with
  | none => rw [load_eq valid, file, found, Option.map_none, Option.map_none]
  | some stored =>
    rw [found] at file
    rw [load_of_get?_eq_text valid file, if_pos (represents.sound key stored found).2]

theorem keys_eq (represents : store.Represents live) : store.keys = live.keys := by
  refine SortedMap.eq_of_pairwise_before store.pairwise_keys (SortedMap.pairwise_keys live)
    fun key => ?_
  rw [mem_keys_iff, SortedMap.contains, ← SortedMap.isSome_get?_iff]
  constructor
  · rintro ⟨-, present⟩
    obtain ⟨other, valid, same⟩ := represents.named _ (SortedMap.isSome_get?_iff.mp present)
    rw [fileName_injective same] at valid
    rwa [represents.files key valid, Option.isSome_map] at present
  · intro present
    obtain ⟨stored, found⟩ := Option.isSome_iff_exists.mp present
    have valid := (represents.sound key stored found).1
    refine ⟨ne_empty_of_isKey valid, ?_⟩
    rwa [represents.files key valid, Option.isSome_map]

theorem removeAll {keys : List String} (represents : store.Represents live)
    (valid : ∀ key ∈ keys, isKey key) :
    ∃ rest, store.removeAll keys = (rest, .ok ()) ∧
      rest.Represents (keys.foldl SortedMap.erase live) := by
  -- Every removal succeeds, so the keys are worked off to the last one.
  induction keys generalizing store live with
  | nil => exact ⟨store, rfl, represents⟩
  | cons key keys ih =>
    obtain ⟨rest, removed, without⟩ := represents.remove (valid key List.mem_cons_self)
    obtain ⟨last, all, none⟩ := ih without fun other later => valid other (.tail _ later)
    refine ⟨last, ?_, none⟩
    simp only [FilterStore.removeAll, removed]
    exact all

theorem clear (represents : store.Represents live) :
    ∃ rest, store.clear = (rest, .ok ()) ∧ rest.Represents ∅ := by
  rw [FilterStore.clear, represents.keys_eq]
  have valid : ∀ key ∈ live.keys, isKey key := by
    intro key member
    obtain ⟨stored, found⟩ := Option.isSome_iff_exists.mp (SortedMap.isSome_get?_iff.mpr member)
    exact (represents.sound key stored found).1
  obtain ⟨rest, removed, represented⟩ := represents.removeAll valid
  refine ⟨rest, removed, represented.congr fun key => ?_⟩
  rw [SortedMap.get?_foldl_erase, SortedMap.get?_empty]
  split
  · rfl
  · rename_i dead
    rwa [← SortedMap.isSome_get?_iff, Option.not_isSome_iff_eq_none] at dead

end Represents

/-! ## Requests -/

section

variable {request : StoreRequest} {key : String} (named : request.key? = some key)
  (invalid : isKey key = false)

include named invalid

/-- A request that names no valid key is refused. -/
theorem perform_of_not_isKey : store.perform request = (.error (.invalidKey key), store) := by
  cases request with
  | save | load | remove =>
    cases named
    simp only [perform, save_of_not_isKey invalid, load_of_not_isKey invalid,
      remove_of_not_isKey invalid]
  | keys | clear => cases named

theorem perform_sessionMap_of_not_isKey :
    live.perform request = (.error (.invalidKey key), live) := by
  cases request with
  | save | load | remove =>
    cases named
    simp only [SessionMap.perform, invalid, Bool.false_eq_true, ↓reduceIte]
  | keys | clear => cases named

end

/-- Store and map answer a request alike, and go on alike if it saves nothing unusual. -/
theorem Represents.step (represents : store.Represents live) (request : StoreRequest) :
    (store.perform request).1 = (live.perform request).1 ∧
      (request.SavesUsual → (store.perform request).2.Represents (live.perform request).2) := by
  by_cases refused : ∃ key, request.key? = some key ∧ isKey key = false
  · obtain ⟨key, named, invalid⟩ := refused
    rw [perform_of_not_isKey named invalid, perform_sessionMap_of_not_isKey named invalid]
    exact ⟨rfl, fun _ => represents⟩
  · have valid : ∀ key, request.key? = some key → isKey key := by
      simpa using refused
    cases request with
    | save key filter sort page =>
      have valid := valid key rfl
      simp only [FilterStore.perform, SessionMap.perform, save_eq valid, valid, ↓reduceIte]
      by_cases short : key.length ≤ 250
      · simp only [short, ↓reduceIte]
        exact ⟨trivial, fun usual => represents.insert valid usual⟩
      · simp only [short, ↓reduceIte]
        exact ⟨trivial, fun _ => represents⟩
    | load key current =>
      have valid := valid key rfl
      simp only [FilterStore.perform, SessionMap.perform, represents.load valid, valid, ↓reduceIte]
      cases live.get? key with
      | none => exact ⟨rfl, fun _ => represents⟩
      | some stored =>
        by_cases fresh : stored.hash = current.schemaHash
        · simp only [fresh, ↓reduceIte]
          exact ⟨trivial, fun _ => represents⟩
        · simp only [fresh, ↓reduceIte]
          exact ⟨trivial, fun _ => represents⟩
    | remove key =>
      have valid := valid key rfl
      obtain ⟨rest, removed, represented⟩ := represents.remove valid
      simp only [FilterStore.perform, SessionMap.perform, removed, valid, ↓reduceIte]
      exact ⟨trivial, fun _ => represented⟩
    | keys =>
      simp only [FilterStore.perform, SessionMap.perform, represents.keys_eq]
      exact ⟨trivial, fun _ => represents⟩
    | clear =>
      obtain ⟨rest, cleared, represented⟩ := represents.clear
      simp only [FilterStore.perform, SessionMap.perform, cleared]
      exact ⟨rfl, fun _ => represented⟩

theorem Represents.after (represents : store.Represents live) {history : List StoreRequest}
    (usual : ∀ request ∈ history, request.SavesUsual) :
    (store.after history).Represents (live.after history) := by
  induction history generalizing store live with
  | nil => exact represents
  | cons request history ih =>
    have next := (represents.step request).2 (usual request List.mem_cons_self)
    exact ih next fun other later => usual other (.tail _ later)

/-- Asking leaves a store as it is when all of its files can be read back. -/
theorem Represents.perform_of_reads (represents : store.Represents live) {request : StoreRequest}
    (reads : request.Reads) : (store.perform request).2 = store := by
  cases request with
  | load key current =>
    cases valid : isKey key with
    | false => rw [perform_of_not_isKey rfl valid]
    | true =>
      simp only [FilterStore.perform, represents.load valid]
      cases live.get? key with
      | none => rfl
      | some stored =>
        by_cases fresh : stored.hash = current.schemaHash <;> simp only [fresh, ↓reduceIte]
  | keys => rfl
  | save | remove | clear => cases reads

/-! ## Other keys -/

/-- A request that names another key leaves the file of a key alone. -/
theorem get?_perform {request : StoreRequest} {other : String} (narrow : request ≠ .clear)
    (apart : request.key? ≠ some other) :
    (store.perform request).2.files.get? (fileName other) =
      store.files.get? (fileName other) := by
  have names : ∀ key, request.key? = some key → fileName key ≠ fileName other :=
    fun key named same => apart (named.trans (congrArg some (fileName_injective same)))
  have kept (key : String) (named : request.key? = some key) {rest : FilterStore}
      (removed : rest = store ∨ rest = store.delete (fileName key)) :
      rest.files.get? (fileName other) = store.files.get? (fileName other) := by
    rcases removed with rfl | rfl
    · rfl
    · rw [get?_delete, if_neg (names key named)]
  -- Keys have files of their own, and a failing request leaves the store as it is.
  cases request with
  | save key filter sort page =>
    rw [perform]
    cases saved : store.save key filter sort page with
    | error => rfl
    | ok rest =>
      exact ((files_of_save saved).2 ▸ SortedMap.get?_insert _ _ _ _).trans (if_neg (names key rfl))
  | load key current =>
    rw [perform]
    cases loaded : store.load key current with
    | error => rfl
    | ok answer => exact kept key rfl (rest_of_load loaded)
  | remove key =>
    rw [perform]
    cases removed : store.remove key with
    | error => rfl
    | ok answer => exact kept key rfl (rest_of_remove removed)
  | keys => rfl
  | clear => exact absurd rfl narrow

/-- What loading answers depends on the file of the key. -/
theorem perform_load_congr {first second : FilterStore} {key : String}
    (same : first.files.get? (fileName key) = second.files.get? (fileName key))
    (current : FilterSpec) :
    (first.perform (.load key current)).1 = (second.perform (.load key current)).1 := by
  cases valid : isKey key with
  | false => rw [perform_of_not_isKey rfl valid, perform_of_not_isKey rfl valid]
  | true =>
    rw [perform, perform, load_eq valid, load_eq valid, same]
    cases (second.files.get? (fileName key)).map decode with
    | none => rfl
    | some outcome =>
      rcases outcome with error | (none | stored)
      · rfl
      · rfl
      · by_cases fresh : stored.hash = current.schemaHash <;> simp only [fresh, ↓reduceIte]

/-! ## The refinement -/

/-- **A filter store is a finite map.** After any history of requests from the empty directory on,
in which no session with unusual buckets is saved, the store answers the next request as the map of
the live sessions does, and asking changes nothing. A request that names no valid key is refused and
changes nothing, and a request that names a key changes no answer to loading another one. -/
theorem answers_as_sessionMap (history : List StoreRequest) (request : StoreRequest)
    (usual : ∀ earlier ∈ history, earlier.SavesUsual) :
    ((empty.after history).perform request).1 = ((SessionMap.after ∅ history).perform request).1 ∧
      (request.Reads → ((empty.after history).perform request).2 = empty.after history) ∧
      (∀ key, request.key? = some key → isKey key = false →
        (empty.after history).perform request = (.error (.invalidKey key), empty.after history)) ∧
      ∀ other current, request ≠ .clear → request.key? ≠ some other →
        (((empty.after history).perform request).2.perform (.load other current)).1 =
          ((empty.after history).perform (.load other current)).1 := by
  have represents := represents_empty.after usual
  refine ⟨(represents.step request).1, represents.perform_of_reads, ?_, ?_⟩
  · intro key named invalid
    exact perform_of_not_isKey named invalid
  · intro other current narrow apart
    exact perform_load_congr (get?_perform narrow apart) current

/-- Sessions for two decks, of which one is removed again. -/
def twoDecks : List StoreRequest :=
  [.save "deck-1" (FilterSpec.standard.set (.rarity .rare) .require) .standard 3,
    .save "deck-2" .standard .standard 0, .remove "deck-2"]

theorem answers_as_sessionMap_twoDecks :
    (∀ earlier ∈ twoDecks, earlier.SavesUsual) ∧
      ((empty.after twoDecks).perform .keys).1 = .ok (.keys ["deck-1"]) ∧
      ((empty.after twoDecks).perform (.load "deck-1" .standard)).1 =
        .ok (.session (some
          (.ofSession (FilterSpec.standard.set (.rarity .rare) .require) .standard 3))) := by
  have usual : ∀ earlier ∈ twoDecks, earlier.SavesUsual := by decide +kernel
  have listed := (answers_as_sessionMap twoDecks .keys usual).1
  have loaded := (answers_as_sessionMap twoDecks (.load "deck-1" .standard) usual).1
  refine ⟨usual, listed.trans (by decide +kernel), loaded.trans ?_⟩
  have fresh : (FilterSpec.standard.set (.rarity .rare) .require).schemaHash =
      FilterSpec.standard.schemaHash :=
    FilterSpec.schemaHash_congr (by decide +kernel)
  have live : (SessionMap.after ∅ twoDecks).get? "deck-1" =
      some (.ofSession (FilterSpec.standard.set (.rarity .rare) .require) .standard 3) :=
    rfl
  have valid : isKey "deck-1" = true := by decide
  simp only [SessionMap.perform, valid, live, StoredFilter.ofSession, fresh, ↓reduceIte]

end FilterStore

end DeckBuilder
