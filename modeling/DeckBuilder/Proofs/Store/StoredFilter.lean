import DeckBuilder.Proofs.Filter.RoundTrip
import DeckBuilder.Store.StoredFilter

/-! # The text of a stored filter

The compact text of a session denotes the session: texts with any characters, any toggles and set
data, any sort entries, any page and any hash come back as they were. Only a filter with a bucket
that filters do not offer is lost, and with it the whole session.
-/

namespace DeckBuilder

/-! ## Sort specifications -/

namespace SortEntry

theorem printable_toJson (entry : SortEntry) : entry.toJson.Printable := by
  apply Json.Printable.object
  simp only [List.forall_mem_cons]
  exact ⟨.string _, .string _, .bool _, fun _ none => by cases none⟩

theorem ofJson?_toJson (entry : SortEntry) : ofJson? entry.toJson = some entry := by
  obtain ⟨field, record, given⟩ :=
    Json.exists_record?_eq entry.toJson fieldNames rfl rfl (by decide)
  have key : (field "sortBy").required SortKey.ofJson? = some entry.key :=
    Json.Field.required_eq (given 0 _ _ rfl) (SortKey.ofLabel?_label _)
  have direction : (field "sortDirection").required SortDirection.ofJson? = some entry.direction :=
    Json.Field.required_eq (given 1 _ _ rfl) (SortDirection.ofLabel?_label _)
  have enabled : (field "enabled").required Json.toBool? = some entry.enabled :=
    Json.Field.required_eq (given 2 _ _ rfl) rfl
  unfold ofJson?
  rw [record, Json.some_bind, key, Json.some_bind, direction, Json.some_bind, enabled]
  rfl

end SortEntry

namespace SortSpec

theorem printable_toJson (spec : SortSpec) : spec.toJson.Printable :=
  Json.printable_ofList SortEntry.printable_toJson spec.entries

theorem ofJson?_toJson (spec : SortSpec) : ofJson? spec.toJson = some spec :=
  congrArg (Option.map SortSpec.mk) (Json.toList?_ofList SortEntry.ofJson?_toJson spec.entries)

end SortSpec

/-! ## Sessions -/

namespace StoredFilter

theorem printable_toJson (stored : StoredFilter) : stored.toJson.Printable := by
  apply Json.Printable.object
  simp only [List.forall_mem_cons]
  exact ⟨stored.filter.printable_toJson, stored.sort.printable_toJson, Json.printable_int _,
    Json.printable_int _, fun _ none => by cases none⟩

theorem ofJson?_toJson (stored : StoredFilter) :
    ofJson? stored.toJson = if stored.filter.HasUsualBuckets then some stored else none := by
  obtain ⟨field, record, given⟩ :=
    Json.exists_record?_eq stored.toJson fieldNames rfl rfl (by decide)
  have filter := Json.Field.required_eq (given 0 _ _ rfl) stored.filter.ofJson?_toJson
  have sort := Json.Field.required_eq (given 1 _ _ rfl) stored.sort.ofJson?_toJson
  have page := Json.Field.required_eq (given 2 _ _ rfl) (Json.toUInt64?_nat stored.page)
  have hash := Json.Field.required_eq (given 3 _ _ rfl) (Json.toInt32?_int stored.hash)
  unfold ofJson?
  rw [record, Json.some_bind, filter]
  by_cases usual : stored.filter.HasUsualBuckets
  · rw [if_pos usual, if_pos usual, Json.some_bind, sort, Json.some_bind, page, Json.some_bind,
      hash]
    rfl
  · rw [if_neg usual, if_neg usual]
    rfl

theorem ofText?_text (stored : StoredFilter) :
    ofText? stored.text = if stored.filter.HasUsualBuckets then some stored else none := by
  rw [ofText?, text, Json.parse?_compact stored.printable_toJson, Option.bind_some, ofJson?_toJson]

/-- **The text of a session denotes the session**, if the mana values of its filter keep to the
buckets from zero to nine and the open one, and only then. -/
theorem ofText?_text_eq_some_iff (stored : StoredFilter) :
    ofText? stored.text = some stored ↔
      ∀ bucket ∈ stored.filter.manaValues.keys,
        bucket = .infinite ∨ ∃ value ≤ 9, bucket = .exact value := by
  have usual : stored.filter.HasUsualBuckets ↔ ∀ bucket ∈ stored.filter.manaValues.keys,
      bucket = .infinite ∨ ∃ value ≤ 9, bucket = .exact value :=
    forall₂_congr fun bucket _ => ManaBucket.mem_all
  rw [ofText?_text, ← usual]
  by_cases keeps : stored.filter.HasUsualBuckets <;> simp [keeps]

end StoredFilter

end DeckBuilder
