import DeckBuilder.Proofs.Lists
import DeckBuilder.SortedMap.Basic

/-! # Look-ups in sorted maps

What the operations on a sorted map do to its look-ups and its keys, and that a map is collected
again from its entries.
-/

namespace DeckBuilder.SortedMap

variable {κ ν : Type} [OrderKey κ]

theorem ext {first second : SortedMap κ ν} (same : first.entries = second.entries) :
    first = second := by
  cases first
  cases second
  cases same
  rfl

theorem nodup_codes (map : SortedMap κ ν) :
    (map.entries.map fun entry => OrderKey.code entry.1).Nodup :=
  List.pairwise_map.mpr (map.sorted.imp OrderCode.Before.ne)

theorem get?_eq_some_iff {map : SortedMap κ ν} {key : κ} {value : ν} :
    map.get? key = some value ↔ (key, value) ∈ map.entries := by
  rw [get?, Option.map_eq_some_iff]
  constructor
  · rintro ⟨⟨other, _⟩, found, rfl⟩
    have same : OrderKey.code other = OrderKey.code key := by simpa using List.find?_some found
    rw [← OrderKey.code_injective same]
    exact List.mem_of_find?_eq_some found
  · intro member
    exact ⟨(key, value), find?_eq_some_of_mem map.nodup_codes member, rfl⟩

theorem isSome_get?_iff {map : SortedMap κ ν} {key : κ} :
    (map.get? key).isSome ↔ key ∈ map.keys := by
  simp only [Option.isSome_iff_exists, get?_eq_some_iff, keys, List.mem_map, Prod.exists,
    exists_and_right, exists_eq_right]

theorem pairwise_keys (map : SortedMap κ ν) : map.keys.Pairwise OrderKey.Before :=
  List.pairwise_map.mpr map.sorted

theorem keys_mapValues {μ : Type} (map : SortedMap κ ν) (change : ν → μ) :
    (map.mapValues change).keys = map.keys := by
  simp only [keys, mapValues, List.map_map, Function.comp_def]

@[simp] theorem get?_empty (key : κ) : (∅ : SortedMap κ ν).get? key = none :=
  rfl

theorem get?_getD_empty {ι : Type} [OrderKey ι] (map : SortedMap κ (SortedMap ι ν)) (key : κ)
    (inner : ι) :
    (map.getD key ∅).get? inner = (map.get? key).bind fun group => group.get? inner := by
  rw [getD]
  cases map.get? key <;> rfl

/-- Equal look-ups make equal maps. -/
theorem ext_get? {first second : SortedMap κ ν}
    (same : ∀ key, first.get? key = second.get? key) : first = second := by
  have mem_iff (entry : κ × ν) : entry ∈ first.entries ↔ entry ∈ second.entries := by
    rw [← get?_eq_some_iff, ← get?_eq_some_iff, same]
  have perm := (List.perm_ext_iff_of_nodup (.of_map _ first.nodup_codes)
    (.of_map _ second.nodup_codes)).mpr mem_iff
  refine ext (perm.eq_of_pairwise (fun a b _ _ before after => ?_) first.sorted second.sorted)
  exact absurd after (OrderCode.Before.asymm before)

/-! ## Changing every value -/

section

variable {μ : Type}

/-- Changes every value, with regard to its key. -/
def mapEntries (map : SortedMap κ ν) (change : κ → ν → μ) : SortedMap κ μ :=
  ⟨map.entries.map fun entry => (entry.1, change entry.1 entry.2),
    List.pairwise_map.mpr map.sorted⟩

theorem get?_mapEntries (map : SortedMap κ ν) (change : κ → ν → μ) (key : κ) :
    (map.mapEntries change).get? key = (map.get? key).map (change key) := by
  rw [get?, get?, mapEntries, List.find?_map, Option.map_map, Option.map_map]
  refine Option.map_congr fun entry found => ?_
  have here : OrderKey.code entry.1 = OrderKey.code key := by
    simpa using List.find?_some found
  rw [Function.comp_apply, Function.comp_apply, OrderKey.code_injective here]

theorem get?_mapValues (map : SortedMap κ ν) (change : ν → μ) (key : κ) :
    (map.mapValues change).get? key = (map.get? key).map change :=
  get?_mapEntries map (fun _ => change) key

end

/-! ## Inserting, updating and erasing -/

theorem insertIfNew_eq_self {map : SortedMap κ ν} {key : κ} (found : (map.get? key).isSome)
    (value : ν) : map.insertIfNew key value = map :=
  if_pos found

section

variable [DecidableEq κ]

/-- The entry that is placed is found, and no other look-up changes. -/
theorem find?_place (key other : κ) (value : ν) (entries : List (κ × ν)) :
    ((place key value entries).find? fun entry => OrderKey.code entry.1 == OrderKey.code other).map
        (·.2) =
      if key = other then some value
      else (entries.find? fun entry => OrderKey.code entry.1 == OrderKey.code other).map (·.2) := by
  induction entries with
  | nil => by_cases same : key = other <;> simp [place, OrderKey.code_inj, same]
  | cons entry rest ih =>
    simp only [place]
    split
    · by_cases same : key = other <;> simp [OrderKey.code_inj, same]
    · rename_i order
      have heads : key = entry.1 := OrderKey.code_injective (OrderCode.eq_of_compare_eq order)
      by_cases same : key = other
      · simp [same]
      · have passed : entry.1 ≠ other := heads ▸ same
        simp [OrderKey.code_inj, same, passed]
    · rename_i order
      by_cases here : entry.1 = other
      · have apart : key ≠ other := by
          rintro rfl
          rw [here, OrderKey.compare, OrderCode.compare_self] at order
          cases order
        simp [here, apart]
      · simpa [OrderKey.code_inj, here] using ih

theorem get?_insert (map : SortedMap κ ν) (key other : κ) (value : ν) :
    (map.insert key value).get? other = if key = other then some value else map.get? other :=
  find?_place key other value map.entries

/-- Giving a key the value that it has changes nothing. -/
theorem insert_eq_self {map : SortedMap κ ν} {key : κ} {value : ν}
    (found : map.get? key = some value) : map.insert key value = map := by
  refine ext_get? fun other => ?_
  rw [get?_insert]
  split
  · rename_i here
    rw [← here, found]
  · rfl

theorem mapValues_insert {μ : Type} (map : SortedMap κ ν) (key : κ) (value : ν) (change : ν → μ) :
    (map.insert key value).mapValues change = (map.mapValues change).insert key (change value) := by
  refine ext_get? fun other => ?_
  rw [get?_insert, get?_mapValues, get?_mapValues, get?_insert]
  split <;> rfl

/-! ### Updating -/

theorem get?_update (map : SortedMap κ ν) (key other : κ) (start : ν) (change : ν → ν) :
    (map.update key start change).get? other =
      if key = other then some (change ((map.get? other).getD start)) else map.get? other := by
  rw [update, get?_insert, getD]
  split
  · rename_i here
    rw [here]
  · rfl

theorem map_get?_update {μ : Type} (map : SortedMap κ ν) (key other : κ) (start : ν)
    {change : ν → ν} {view : ν → μ} {image : μ → μ}
    (commutes : ∀ value, view (change value) = image (view value)) :
    ((map.update key start change).get? other).map view =
      if key = other then some (image (((map.get? other).map view).getD (view start)))
      else (map.get? other).map view := by
  rw [get?_update, apply_ite (Option.map view), Option.map_some, commutes, Option.getD_map]

/-- A look-up in a map of maps after one of the inner maps has changed. -/
theorem bind_get?_update {ι : Type} [OrderKey ι] (map : SortedMap κ (SortedMap ι ν))
    (key other : κ) (change : SortedMap ι ν → SortedMap ι ν) (inner : ι) :
    (((map.update key ∅ change).get? other).bind fun group => group.get? inner) =
      if key = other then (change (map.getD other ∅)).get? inner
      else (map.get? other).bind fun group => group.get? inner := by
  rw [get?_update]
  split <;> rfl

theorem mapValues_update {μ : Type} (map : SortedMap κ ν) (key : κ) (start : ν) {step : ν → ν}
    {change : ν → μ} {image : μ → μ}
    (commutes : ∀ value, change (step value) = image (change value)) :
    (map.update key start step).mapValues change =
      (map.mapValues change).update key (change start) image := by
  rw [update, update, mapValues_insert, commutes, getD, getD, get?_mapValues, Option.getD_map]

/-- Changing the value of a key into itself changes nothing. -/
theorem update_eq_self {map : SortedMap κ ν} {key : κ} {start value : ν} {change : ν → ν}
    (found : map.get? key = some value) (fixed : change value = value) :
    map.update key start change = map := by
  rw [update, getD, found, Option.getD_some, fixed]
  exact insert_eq_self found

/-- An update that a view of the values does not show leaves the view of the map as it is. -/
theorem mapValues_update_eq {μ : Type} {map : SortedMap κ ν} {key : κ} {start old : ν}
    {step : ν → ν} {change : ν → μ} (found : map.get? key = some old)
    (hidden : change (step old) = change old) :
    (map.update key start step).mapValues change = map.mapValues change := by
  rw [update, getD, found, Option.getD_some, mapValues_insert, hidden]
  apply insert_eq_self
  rw [get?_mapValues, found, Option.map_some]

/-- Of two updates of one key the second goes on from the first. -/
theorem update_update (map : SortedMap κ ν) (key : κ) (start : ν) (first second : ν → ν) :
    (map.update key start first).update key start second =
      map.update key start fun value => second (first value) := by
  refine ext_get? fun other => ?_
  simp only [get?_update]
  split <;> rfl

/-- Updates of different keys can change places, and so can updates of one key whose changes can. -/
theorem update_comm (map : SortedMap κ ν) {key other : κ} {start otherStart : ν}
    {change otherChange : ν → ν}
    (agree : key = other → start = otherStart ∧
      ∀ value, otherChange (change value) = change (otherChange value)) :
    (map.update key start change).update other otherStart otherChange =
      (map.update other otherStart otherChange).update key start change := by
  by_cases same : key = other
  · obtain ⟨rfl, commute⟩ := agree same
    subst same
    rw [update_update, update_update, funext commute]
  · refine ext_get? fun third => ?_
    simp only [get?_update]
    by_cases here : key = third
    · subst here
      rw [if_neg (Ne.symm same), if_pos rfl, if_pos rfl, if_neg (Ne.symm same)]
    · rw [if_neg here, if_neg here]

/-! ### Giving new keys a value -/

/-- Giving a new key a value is an update that leaves old values alone. -/
theorem insertIfNew_eq_update (map : SortedMap κ ν) (key : κ) (value : ν) :
    map.insertIfNew key value = map.update key value id := by
  rw [insertIfNew, contains, update, getD, id_eq]
  cases found : map.get? key with
  | none => rfl
  | some present => exact (insert_eq_self found).symm

theorem get?_insertIfNew (map : SortedMap κ ν) (key other : κ) (value : ν) :
    (map.insertIfNew key value).get? other =
      if key = other then some ((map.get? other).getD value) else map.get? other := by
  rw [insertIfNew_eq_update, get?_update, id_eq]

theorem map_get?_insertIfNew {μ : Type} (map : SortedMap κ ν) (key other : κ) (value : ν)
    (view : ν → μ) :
    ((map.insertIfNew key value).get? other).map view =
      if key = other then some (((map.get? other).map view).getD (view value))
      else (map.get? other).map view := by
  rw [get?_insertIfNew, apply_ite (Option.map view), Option.map_some, Option.getD_map]

theorem mapValues_insertIfNew {μ : Type} (map : SortedMap κ ν) (key : κ) (value : ν)
    (change : ν → μ) :
    (map.insertIfNew key value).mapValues change =
      (map.mapValues change).insertIfNew key (change value) := by
  rw [insertIfNew_eq_update, insertIfNew_eq_update]
  exact mapValues_update map key value fun _ => rfl

theorem insertIfNew_comm (map : SortedMap κ ν) {key other : κ} {value otherValue : ν}
    (agree : key = other → value = otherValue) :
    (map.insertIfNew key value).insertIfNew other otherValue =
      (map.insertIfNew other otherValue).insertIfNew key value := by
  simp only [insertIfNew_eq_update]
  exact update_comm map fun same => ⟨agree same, fun _ => rfl⟩

/-! ### Erasing and collecting -/

theorem get?_erase (map : SortedMap κ ν) (key other : κ) :
    (map.erase key).get? other = if key = other then none else map.get? other := by
  unfold get? erase
  rw [List.find?_filter]
  by_cases same : key = other
  · subst same
    simp
  · rw [if_neg same]
    refine congrArg (Option.map (·.2)) (congrArg (List.find? · map.entries) ?_)
    funext entry
    by_cases here : entry.1 = other
    · simp [here, OrderKey.code_inj, Ne.symm same]
    · simp [here, OrderKey.code_inj]

theorem get?_foldl_erase (keys : List κ) (map : SortedMap κ ν) (key : κ) :
    (keys.foldl erase map).get? key = if key ∈ keys then none else map.get? key := by
  induction keys generalizing map with
  | nil => simp
  | cons first rest ih =>
    rw [List.foldl_cons, ih, get?_erase]
    by_cases here : first = key
    · simp [here]
    · simp [here, Ne.symm here]

theorem mem_keys_insert {map : SortedMap κ ν} {key other : κ} {value : ν} :
    other ∈ (map.insert key value).keys ↔ other = key ∨ other ∈ map.keys := by
  rw [← isSome_get?_iff, ← isSome_get?_iff, get?_insert]
  by_cases same : key = other
  · simp [same]
  · simp [same, Ne.symm same]

theorem mem_keys_ofList {entries : List (κ × ν)} {key : κ} :
    key ∈ (ofList entries).keys ↔ key ∈ entries.map (·.1) := by
  have collected (start : SortedMap κ ν) :
      key ∈ (entries.foldl (fun map entry => map.insert entry.1 entry.2) start).keys ↔
        key ∈ start.keys ∨ key ∈ entries.map (·.1) := by
    induction entries generalizing start with
    | nil => simp
    | cons entry rest ih =>
      rw [List.foldl_cons, ih, mem_keys_insert, List.map_cons, List.mem_cons]
      tauto
  rw [ofList, collected]
  exact or_iff_right List.not_mem_nil

theorem mem_distinctSorted {keys : List κ} {key : κ} : key ∈ distinctSorted keys ↔ key ∈ keys := by
  rw [distinctSorted, mem_keys_ofList, List.map_map]
  simp

end

theorem pairwise_distinctSorted (keys : List κ) :
    (distinctSorted keys).Pairwise OrderKey.Before :=
  pairwise_keys _

theorem nodup_of_pairwise_before {keys : List κ} (sorted : keys.Pairwise OrderKey.Before) :
    keys.Nodup :=
  sorted.imp fun before equal => OrderCode.Before.ne before (congrArg OrderKey.code equal)

/-- Sorted keys are told by which ones they are. -/
theorem eq_of_pairwise_before {first second : List κ} (left : first.Pairwise OrderKey.Before)
    (right : second.Pairwise OrderKey.Before) (same : ∀ key, key ∈ first ↔ key ∈ second) :
    first = second := by
  refine List.Perm.eq_of_pairwise (fun a b _ _ before after => ?_) left right
    ((List.perm_ext_iff_of_nodup (nodup_of_pairwise_before left)
      (nodup_of_pairwise_before right)).mpr same)
  exact absurd after (OrderCode.Before.asymm before)

/-! ## Collecting the entries of a map -/

theorem place_of_before {key : κ} {value : ν} {entries : List (κ × ν)}
    (before : ∀ entry ∈ entries, OrderKey.Before entry.1 key) :
    place key value entries = entries ++ [(key, value)] := by
  induction entries with
  | nil => rfl
  | cons entry rest ih =>
    have after : OrderKey.compare key entry.1 = .gt := by
      have first : OrderCode.compare _ _ = .lt := before entry List.mem_cons_self
      rw [OrderKey.compare, OrderCode.compare_swap (OrderKey.code entry.1), first]
      rfl
    rw [place, after, List.cons_append, ih fun other later => before other (.tail _ later)]

theorem ofList_entries (map : SortedMap κ ν) : ofList map.entries = map := by
  -- Entries that come after all those collected so far go to the end.
  have collected : ∀ (rest : List (κ × ν)) (start : SortedMap κ ν),
      (start.entries ++ rest).Pairwise (fun first second => OrderKey.Before first.1 second.1) →
        (rest.foldl (fun map entry => map.insert entry.1 entry.2) start).entries =
          start.entries ++ rest := by
    intro rest
    induction rest with
    | nil => simp
    | cons entry rest ih =>
      intro start sorted
      have placed : (start.insert entry.1 entry.2).entries = start.entries ++ [entry] := by
        refine place_of_before fun other earlier => ?_
        exact (List.pairwise_append.mp sorted).2.2 other earlier entry List.mem_cons_self
      rw [List.foldl_cons, ih, placed, List.append_assoc]
      · rfl
      · rwa [placed, List.append_assoc]
  exact ext (collected map.entries empty map.sorted)

end DeckBuilder.SortedMap
