import DeckBuilder.Filter.Schema
import DeckBuilder.Proofs.SortedMap

/-! # The wishes of a filter, key by key

A filter is looked at as a function from keys to toggles. Setting a key changes the toggle of that
key and no other, and offering a key changes none.
-/

namespace DeckBuilder

/-- The key under which a toggle is kept: legality statuses are kept in lower case. -/
def FilterKey.normal : FilterKey → FilterKey
  | legality format status => legality format (lowercase status)
  | key => key

namespace FilterSpec

/-- The toggle that is kept under a key. A legality status is looked up as it is written, since a
filter that was read from a file may keep statuses in any case. -/
def kept? (spec : FilterSpec) : FilterKey → Option Toggle
  | .legality format status =>
    (spec.legalities.get? format).bind fun statuses => statuses.get? status
  | key => spec.get? key

/-- The toggle that is kept under a key, if any; no toggle is no preference. -/
def wish (spec : FilterSpec) (key : FilterKey) : Toggle :=
  (spec.kept? key).getD .unset

theorem get?_eq_kept? (spec : FilterSpec) (key : FilterKey) :
    spec.get? key = spec.kept? key.normal := by
  cases key <;> rfl

theorem get_eq_wish (spec : FilterSpec) (key : FilterKey) : spec.get key = spec.wish key.normal :=
  congrArg (·.getD .unset) (spec.get?_eq_kept? key)

theorem wish_eq_iff {spec : FilterSpec} {key : FilterKey} {value : Toggle} (set : value ≠ .unset) :
    spec.wish key = value ↔ spec.kept? key = some value := by
  rw [wish]
  cases spec.kept? key with
  | none => simp [set.symm]
  | some kept => simp

/-! ## Changing a toggle -/

/-- Changes the toggle at a key, which has no preference when it is new. -/
def alter (spec : FilterSpec) (key : FilterKey) (change : Toggle → Toggle) : FilterSpec :=
  match key with
  | .color color => { spec with colors := spec.colors.update color .unset change }
  | .multiColor => { spec with multiColor := change spec.multiColor }
  | .rarity rarity => { spec with rarities := spec.rarities.update rarity .unset change }
  | .manaValue bucket => { spec with manaValues := spec.manaValues.update bucket .unset change }
  | .cardType cardType => { spec with cardTypes := spec.cardTypes.update cardType .unset change }
  | .subtype cardType subtype =>
    { spec with
      subtypes := spec.subtypes.update cardType ∅ fun group => group.update subtype .unset change }
  | .set code =>
    { spec with
      sets := spec.sets.update code .bare fun filter =>
        { filter with value := change filter.value } }
  | .legality format status =>
    { spec with
      legalities := spec.legalities.update format ∅ fun statuses =>
        statuses.update (lowercase status) .unset change }
  | .layout layout => { spec with layouts := spec.layouts.update layout .unset change }
  | .game game => { spec with games := spec.games.update game .unset change }
  | .tag tag => { spec with tags := spec.tags.update tag .unset change }

/-- **Changing a toggle changes what is kept under its key and nothing else.** -/
theorem kept?_alter (spec : FilterSpec) (key other : FilterKey) (change : Toggle → Toggle) :
    (spec.alter key change).kept? other =
      if key.normal = other then some (change (spec.wish other)) else spec.kept? other := by
  have inSets (code other : String) :
      ((spec.sets.update code .bare fun filter =>
          { filter with value := change filter.value }).get? other).map (·.value) =
        if code = other then some (change (((spec.sets.get? other).map (·.value)).getD .unset))
        else (spec.sets.get? other).map (·.value) :=
    SortedMap.map_get?_update spec.sets code other .bare fun _ => rfl
  -- Keys of different dimensions lie in different maps, and within a map the look-up decides.
  cases key <;> cases other <;> simp only [alter, wish, kept?, get?, FilterKey.normal] <;>
    simp [↓inSets, ↓SortedMap.bind_get?_update, SortedMap.get?_update, SortedMap.get?_getD_empty,
      ite_and]

/-! ## Setting a key -/

theorem set_eq_alter (spec : FilterSpec) (key : FilterKey) (value : Toggle) :
    spec.set key value = spec.alter key fun _ => value := by
  cases key <;> rfl

/-- **Setting a key changes the toggle of that key and no other.** -/
theorem kept?_set (spec : FilterSpec) (key other : FilterKey) (value : Toggle) :
    (spec.set key value).kept? other =
      if key.normal = other then some value else spec.kept? other := by
  rw [set_eq_alter, kept?_alter]

theorem wish_set (spec : FilterSpec) (key other : FilterKey) (value : Toggle) :
    (spec.set key value).wish other = if key.normal = other then value else spec.wish other := by
  rw [wish, kept?_set]
  split <;> rfl

/-- Setting a key leaves the search text and the flags alone. -/
theorem frame_set (spec : FilterSpec) (key : FilterKey) (value : Toggle) :
    (spec.set key value).search = spec.search ∧
      (spec.set key value).hideIgnored = spec.hideIgnored ∧
      (spec.set key value).hideUnreleased = spec.hideUnreleased := by
  cases key <;> exact ⟨rfl, rfl, rfl⟩

/-! ## Offering a key -/

theorem offer_eq_alter (spec : FilterSpec) (key : FilterKey) :
    spec.offer key = spec.alter key id := by
  cases key <;> simp only [offer, alter, ToggleMap.offer, SortedMap.insertIfNew_eq_update] <;> rfl

/-- **Offering a key changes no preference.** -/
theorem kept?_offer (spec : FilterSpec) (key other : FilterKey) :
    (spec.offer key).kept? other =
      if key.normal = other then some (spec.wish other) else spec.kept? other := by
  rw [offer_eq_alter, kept?_alter, id_eq]

theorem kept?_offerSet (spec : FilterSpec) (printing : Printing) (other : FilterKey) :
    (spec.offerSet printing).kept? other =
      if .set printing.set = other then some (spec.wish other) else spec.kept? other := by
  cases other <;>
    simp [offerSet, wish, kept?, get?, SortedMap.map_get?_insertIfNew]

end FilterSpec

end DeckBuilder
