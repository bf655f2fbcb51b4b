import DeckBuilder.Proofs.Filter.Schema

/-! # The laws of setting and reading toggles

A key gives access to one toggle of a filter: what is set is read, the toggles of other keys stay,
and different keys can be set in either order. Two keys are the same when they differ only in the
case of a legality status. So the steps forward and backward of a control walk through the toggles,
whatever the filter offers.
-/

namespace DeckBuilder

namespace FilterSpec

variable {spec : FilterSpec} {key other : FilterKey}

/-! ## Changing two toggles -/

/-- Changes at different keys can be made in either order, and so can changes at one key that
commute. -/
theorem alter_comm (spec : FilterSpec) {change otherChange : Toggle → Toggle}
    (agree : key.normal = other.normal →
      ∀ toggle, otherChange (change toggle) = change (otherChange toggle)) :
    (spec.alter key change).alter other otherChange =
      (spec.alter other otherChange).alter key change := by
  -- Keys of different dimensions change different fields.
  cases key <;> cases other <;> try rfl
  case multiColor.multiColor => simp only [alter, agree rfl]
  case set.set =>
    simp only [alter]
    rw [SortedMap.update_comm]
    rintro rfl
    exact ⟨rfl, fun filter => by rw [agree rfl]⟩
  case subtype.subtype | legality.legality =>
    simp only [alter]
    rw [SortedMap.update_comm]
    rintro rfl
    refine ⟨rfl, fun group => SortedMap.update_comm group fun same => ⟨rfl, agree ?_⟩⟩
    simp only [FilterKey.normal, same]
  all_goals
    simp only [alter]
    rw [SortedMap.update_comm]
    rintro rfl
    exact ⟨rfl, agree rfl⟩

theorem alter_congr (same : key.normal = other.normal) (change : Toggle → Toggle) :
    spec.alter key change = spec.alter other change := by
  cases key <;> cases other <;> simp_all [FilterKey.normal, alter]

/-- Of two changes at one key the second goes on from the first. -/
theorem alter_alter (spec : FilterSpec) (key : FilterKey) (first second : Toggle → Toggle) :
    (spec.alter key first).alter key second =
      spec.alter key fun toggle => second (first toggle) := by
  cases key <;> simp [alter, SortedMap.update_update]

/-! ## Setting and reading -/

/-- What is set is read, under every key that means the same, and other keys read as before. -/
theorem get_set (spec : FilterSpec) (key other : FilterKey) (value : Toggle) :
    (spec.set key value).get other =
      if key.normal = other.normal then value else spec.get other := by
  rw [get_eq_wish, get_eq_wish, wish_set]

theorem get_set_self (spec : FilterSpec) (key : FilterKey) (value : Toggle) :
    (spec.set key value).get key = value := by
  rw [get_set, if_pos rfl]

theorem get_set_of_ne (apart : key.normal ≠ other.normal) (value : Toggle) :
    (spec.set key value).get other = spec.get other := by
  rw [get_set, if_neg apart]

theorem set_comm (apart : key.normal ≠ other.normal) (value otherValue : Toggle) :
    (spec.set key value).set other otherValue = (spec.set other otherValue).set key value := by
  simp only [set_eq_alter]
  exact alter_comm spec fun same => absurd same apart

/-- What is set last counts. -/
theorem set_set (same : key.normal = other.normal) (value otherValue : Toggle) :
    (spec.set key value).set other otherValue = spec.set other otherValue := by
  rw [set_eq_alter, set_eq_alter, set_eq_alter, alter_congr same, alter_alter]

/-- The data of a set that is on offer stay. -/
theorem sets_get?_set {code : String} {filter : SetFilter}
    (found : spec.sets.get? code = some filter) (key : FilterKey) (value : Toggle) :
    ∃ toggle, (spec.set key value).sets.get? code = some { filter with value := toggle } := by
  cases key with
  | set other =>
    rw [set, SortedMap.get?_update, found, Option.getD_some]
    split
    · exact ⟨value, rfl⟩
    · exact ⟨filter.value, rfl⟩
  | color | multiColor | rarity | manaValue | cardType | subtype | legality | layout | game | tag =>
    exact ⟨filter.value, found⟩

/-! ## Stepping -/

theorem get_toggle (spec : FilterSpec) (key : FilterKey) :
    (spec.toggle key).get key = (spec.get key).next :=
  get_set_self spec key _

theorem get_toggleBack (spec : FilterSpec) (key : FilterKey) :
    (spec.toggleBack key).get key = (spec.get key).prev :=
  get_set_self spec key _

/-- **Toggles obey the laws of a lens.** What is set at a key is read there, and every other key is
read as before. The search text, the flags and the data of the sets stay. Different keys can be set
in either order, and of two values for one key the last one counts: the filters are the same, so
they are written alike. A step forward and one backward, in either order, and three steps forward
bring a toggle back to where it was. -/
theorem set_obeys_lens_laws (spec : FilterSpec) (key other : FilterKey)
    (value otherValue : Toggle) :
    (spec.set key value).get key = value ∧
      (key.normal ≠ other.normal → (spec.set key value).get other = spec.get other) ∧
      ((spec.set key value).search = spec.search ∧
        (spec.set key value).hideIgnored = spec.hideIgnored ∧
        (spec.set key value).hideUnreleased = spec.hideUnreleased) ∧
      (∀ code filter, spec.sets.get? code = some filter →
        ∃ toggle, (spec.set key value).sets.get? code = some { filter with value := toggle }) ∧
      (key.normal ≠ other.normal →
        (spec.set key value).set other otherValue = (spec.set other otherValue).set key value) ∧
      (key.normal = other.normal →
        (spec.set key value).set other otherValue = spec.set other otherValue) ∧
      ((spec.toggle key).toggleBack key).get key = spec.get key ∧
      ((spec.toggleBack key).toggle key).get key = spec.get key ∧
      (((spec.toggle key).toggle key).toggle key).get key = spec.get key := by
  refine ⟨get_set_self spec key value, fun apart => get_set_of_ne apart value,
    frame_set spec key value, fun code filter found => sets_get?_set found key value,
    fun apart => set_comm apart value otherValue, fun same => set_set same value otherValue,
    ?_, ?_, ?_⟩
  · rw [get_toggleBack, get_toggle, Toggle.prev_next]
  · rw [get_toggle, get_toggleBack, Toggle.next_prev]
  · rw [get_toggle, get_toggle, get_toggle, Toggle.next_next_next]

/-- The statuses share a format, one of them is written in two ways, and the set has its data from
the instant. -/
theorem set_obeys_lens_laws_shock :
    let shocks := ofCards [.shock]
    let legal := FilterKey.legality "modern" "LEGAL"
    let banned := FilterKey.legality "modern" "Banned"
    let archive := FilterKey.set "sta"
    (legal.normal ≠ banned.normal ∧
        (shocks.set legal .require).get banned = shocks.get banned ∧
        (shocks.set legal .require).set banned .exclude =
          (shocks.set banned .exclude).set legal .require) ∧
      (legal.normal = (FilterKey.legality "modern" "legal").normal ∧
        (shocks.set legal .require).set (.legality "modern" "legal") .exclude =
          shocks.set (.legality "modern" "legal") .exclude) ∧
      shocks.sets.get? "sta" = some ⟨"Archive", .unset, none, none, [.paper]⟩ ∧
        ∃ toggle, (shocks.set archive .require).sets.get? "sta" =
          some ⟨"Archive", toggle, none, none, [.paper]⟩ := by
  intro shocks legal banned archive
  have apart : legal.normal ≠ banned.normal := by decide +kernel
  have same : legal.normal = (FilterKey.legality "modern" "legal").normal := by decide +kernel
  have found : shocks.sets.get? "sta" = some ⟨"Archive", .unset, none, none, [.paper]⟩ := by
    decide +kernel
  obtain ⟨-, kept, -, -, commute, -⟩ :=
    set_obeys_lens_laws shocks legal banned .require .exclude
  obtain ⟨-, -, -, -, -, last, -⟩ :=
    set_obeys_lens_laws shocks legal (.legality "modern" "legal") .require .exclude
  obtain ⟨-, -, -, data, -⟩ := set_obeys_lens_laws shocks archive banned .require .exclude
  exact ⟨⟨apart, kept apart, commute apart⟩, ⟨same, last same⟩, found, data _ _ found⟩

end FilterSpec

end DeckBuilder
