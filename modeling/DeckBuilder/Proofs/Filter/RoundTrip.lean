import DeckBuilder.Filter.Codec
import DeckBuilder.Proofs.Json.Record

/-! # Filters as documents, and back

The document of a filter denotes the filter, with all its keys and toggles, and its sets with their
data, if its mana values keep to the buckets from zero to nine and the open one. A filter with any
other bucket has a document that denotes no filter, since such a bucket is written as a number that
names no bucket.
-/

namespace DeckBuilder

/-! ## Names -/

namespace ManaBucket

theorem exact_mem_all {value : UInt32} : exact value ∈ all ↔ value ≤ highest := by
  have value_eq : UInt32.ofNat value.toNat = value := UInt32.ofNat_toNat
  simp only [all, List.mem_append, List.mem_map, List.mem_range, exact.injEq, List.mem_singleton,
    reduceCtorEq, or_false, UInt32.le_iff_toNat_le]
  constructor
  · rintro ⟨n, below, rfl⟩
    exact Nat.le_trans (Nat.mod_le _ _) (Nat.le_of_lt_succ below)
  · intro below
    exact ⟨value.toNat, Nat.lt_succ_of_le below, value_eq⟩

theorem mem_all {bucket : ManaBucket} :
    bucket ∈ all ↔ bucket = .infinite ∨ ∃ value ≤ highest, bucket = .exact value := by
  cases bucket with
  | exact value => simp [exact_mem_all]
  | infinite => exact iff_of_true (by decide) (.inl rfl)

/-- The bucket of a mana value is one that filters offer. -/
theorem ofManaValue_mem_all (manaValue : UInt32) : ofManaValue manaValue ∈ all := by
  rw [ofManaValue]
  split
  · decide
  · rename_i low
    exact exact_mem_all.mpr (UInt32.not_lt.mp low)

/-- The name of a bucket is that of the bucket when filters offer it, and otherwise of none. -/
theorem ofName?_name (bucket : ManaBucket) :
    ofName? bucket.name = if bucket ∈ all then some bucket else none := by
  cases bucket with
  | infinite => rw [if_pos (by decide)]; rfl
  | exact value =>
    have chars : (decimal value.toNat).toList = Text.numeral value.toNat := String.toList_ofList
    -- A numeral starts with a digit, so it is not the name of the open bucket.
    have numeric : decimal value.toNat ≠ "infinite" := by
      intro same
      obtain ⟨c, rest, numeral, isDigit⟩ := Text.exists_numeral_eq_cons value.toNat
      rw [same, numeral] at chars
      exact Text.ne_of_isSome_digitValue? isDigit rfl (List.cons.inj chars).1.symm
    simp only [name, ofName?, numeric, ↓reduceIte, chars, Text.word?_numeral, Option.bind_some,
      exact_mem_all]

end ManaBucket

/-! ## Toggles -/

namespace Toggle

theorem printable_toJson (toggle : Toggle) : toggle.toJson.Printable :=
  .string _

theorem ofJson?_toJson (toggle : Toggle) : ofJson? toggle.toJson = some toggle :=
  ofName?_name toggle

end Toggle

namespace ToggleMap

variable {κ : Type} [OrderKey κ] {name : κ → String} {key? : String → Option κ}

theorem printable_toJson (toggles : ToggleMap κ) : (toJson name toggles).Printable :=
  Json.printable_ofMap Toggle.printable_toJson toggles

theorem ofJson?_toJson (keys : ∀ key, key? (name key) = some key) (toggles : ToggleMap κ) :
    ofJson? key? (toJson name toggles) = some toggles :=
  Json.toMap?_ofMap (fun key _ => keys key) Toggle.ofJson?_toJson

theorem ofJson?_toJson_ofName {ofName : String → κ} (keys : ∀ key, ofName (name key) = key)
    (toggles : ToggleMap κ) :
    ofJson? (fun text => some (ofName text)) (toJson name toggles) = some toggles := by
  apply ofJson?_toJson
  intro key
  rw [keys]

theorem printable_textToJson (toggles : ToggleMap String) : (textToJson toggles).Printable :=
  printable_toJson toggles

theorem textOfJson?_textToJson (toggles : ToggleMap String) :
    textOfJson? (textToJson toggles) = some toggles :=
  ofJson?_toJson (fun _ => rfl) toggles

end ToggleMap

/-! ## Sets -/

namespace SetFilter

theorem printable_toJson (filter : SetFilter) : filter.toJson.Printable := by
  apply Json.Printable.object
  simp only [List.forall_mem_cons]
  exact ⟨.string _, Toggle.printable_toJson _,
    Json.printable_ofOption (fun _ => .string _) filter.releasedAt,
    Json.printable_ofOption (fun _ => .string _) filter.setType,
    Json.printable_ofList (fun _ => .string _) filter.games, fun _ none => by cases none⟩

theorem ofJson?_toJson (filter : SetFilter) : ofJson? filter.toJson = some filter := by
  obtain ⟨field, record, given⟩ :=
    Json.exists_record?_eq filter.toJson fieldNames rfl rfl (by decide)
  have setName : (field "setName").required Json.toText? = some filter.setName :=
    Json.Field.required_eq (given 0 _ _ rfl) rfl
  have value := Json.Field.required_eq (given 1 _ _ rfl) (Toggle.ofJson?_toJson filter.value)
  have released := Json.Field.optional_eq (given 2 _ _ rfl) Json.toDate?_ofDate
    fun _ => Json.noConfusion
  have setType := Json.Field.optional_text_eq (given 3 _ _ rfl)
  have games := Json.Field.orDefault_eq [] (given 4 _ _ rfl)
    (Json.toList?_ofList Game.ofJson?_toJson filter.games)
  unfold ofJson?
  rw [record, Json.some_bind, setName, Json.some_bind, value, Json.some_bind, released,
    Json.some_bind, setType, Json.some_bind, games]
  rfl

end SetFilter

/-! ## Filters -/

namespace FilterSpec

/-- Mana values have toggles for the buckets from zero to nine and the open one only. -/
def HasUsualBuckets (spec : FilterSpec) : Prop :=
  ∀ bucket ∈ spec.manaValues.keys, bucket ∈ ManaBucket.all

instance (spec : FilterSpec) : Decidable spec.HasUsualBuckets :=
  inferInstanceAs (Decidable (∀ bucket ∈ spec.manaValues.keys, bucket ∈ ManaBucket.all))

/-- Filters that differ in preferences only have one schema hash. -/
theorem schemaHash_congr {first second : FilterSpec} (same : first.clear = second.clear) :
    first.schemaHash = second.schemaHash := by
  rw [schemaHash, schemaHash, same]

theorem printable_toJson (spec : FilterSpec) : spec.toJson.Printable := by
  apply Json.Printable.object
  simp only [List.forall_mem_cons]
  exact ⟨.string _, ToggleMap.printable_toJson _, Toggle.printable_toJson _,
    ToggleMap.printable_toJson _, ToggleMap.printable_toJson _, ToggleMap.printable_textToJson _,
    Json.printable_ofMap ToggleMap.printable_textToJson _,
    Json.printable_ofMap SetFilter.printable_toJson _,
    Json.printable_ofMap ToggleMap.printable_textToJson _, ToggleMap.printable_toJson _,
    ToggleMap.printable_toJson _, ToggleMap.printable_textToJson _, .bool _, .bool _,
    fun _ none => by cases none⟩

theorem manaValues_ofJson?_toJson (spec : FilterSpec) :
    ToggleMap.ofJson? ManaBucket.ofName? (ToggleMap.toJson ManaBucket.name spec.manaValues) =
      if spec.HasUsualBuckets then some spec.manaValues else none := by
  by_cases usual : spec.HasUsualBuckets
  · rw [if_pos usual]
    refine Json.toMap?_ofMap (fun bucket member => ?_) Toggle.ofJson?_toJson
    rw [ManaBucket.ofName?_name, if_pos (usual bucket member)]
  · rw [if_neg usual]
    simp only [HasUsualBuckets, not_forall] at usual
    obtain ⟨bucket, member, unusual⟩ := usual
    refine Json.toMap?_ofMap_eq_none member ?_
    rw [ManaBucket.ofName?_name, if_neg unusual]

/-- The document of a filter denotes the filter when its buckets are usual, and else no filter. -/
theorem ofJson?_toJson (spec : FilterSpec) :
    ofJson? spec.toJson = if spec.HasUsualBuckets then some spec else none := by
  obtain ⟨field, record, given⟩ :=
    Json.exists_record?_eq spec.toJson fieldNames rfl rfl (by decide)
  have search : (field "searchString").required Json.toText? = some spec.search :=
    Json.Field.required_eq (given 0 _ _ rfl) rfl
  have colors := Json.Field.required_eq (given 1 _ _ rfl)
    (ToggleMap.ofJson?_toJson Color.ofName?_name spec.colors)
  have multiColor := Json.Field.required_eq (given 2 _ _ rfl)
    (Toggle.ofJson?_toJson spec.multiColor)
  have rarities := Json.Field.required_eq (given 3 _ _ rfl)
    (ToggleMap.ofJson?_toJson_ofName Rarity.ofName_name spec.rarities)
  have manaValues := Json.Field.required_eq (given 4 _ _ rfl) spec.manaValues_ofJson?_toJson
  have cardTypes := Json.Field.required_eq (given 5 _ _ rfl)
    (ToggleMap.textOfJson?_textToJson spec.cardTypes)
  have subtypes := Json.Field.required_eq (given 6 _ _ rfl)
    (Json.toMap?_ofMap_text ToggleMap.textOfJson?_textToJson spec.subtypes)
  have sets := Json.Field.required_eq (given 7 _ _ rfl)
    (Json.toMap?_ofMap_text SetFilter.ofJson?_toJson spec.sets)
  have legalities := Json.Field.required_eq (given 8 _ _ rfl)
    (Json.toMap?_ofMap_text ToggleMap.textOfJson?_textToJson spec.legalities)
  have layouts := Json.Field.required_eq (given 9 _ _ rfl)
    (ToggleMap.ofJson?_toJson_ofName Layout.ofName_name spec.layouts)
  have games := Json.Field.required_eq (given 10 _ _ rfl)
    (ToggleMap.ofJson?_toJson_ofName Game.ofName_name spec.games)
  have tags := Json.Field.required_eq (given 11 _ _ rfl)
    (ToggleMap.textOfJson?_textToJson spec.tags)
  have hideIgnored : (field "hideIgnored").required Json.toBool? = some spec.hideIgnored :=
    Json.Field.required_eq (given 12 _ _ rfl) rfl
  have hideUnreleased : (field "hideUnreleased").required Json.toBool? = some spec.hideUnreleased :=
    Json.Field.required_eq (given 13 _ _ rfl) rfl
  unfold ofJson?
  rw [record, Json.some_bind, search, Json.some_bind, colors, Json.some_bind, multiColor,
    Json.some_bind, rarities, Json.some_bind, manaValues]
  -- The buckets are the only keys that may be refused.
  by_cases usual : spec.HasUsualBuckets
  · rw [if_pos usual, if_pos usual, Json.some_bind, cardTypes, Json.some_bind, subtypes,
      Json.some_bind, sets, Json.some_bind, legalities, Json.some_bind, layouts, Json.some_bind,
      games, Json.some_bind, tags, Json.some_bind, hideIgnored, Json.some_bind, hideUnreleased]
    rfl
  · rw [if_neg usual, if_neg usual]
    rfl

end FilterSpec

end DeckBuilder
