import DeckBuilder.Json.Record
import DeckBuilder.Proofs.Calendar.Date
import DeckBuilder.Proofs.Json.Documents
import DeckBuilder.Proofs.SortedMap

/-! # Readers undo writers

Values, options, lists, maps and records are read back from the documents that are written for them,
and all of these documents have a text of their own.
-/

namespace DeckBuilder.Json

/-! ## Plain values -/

theorem printable_int (value : Int) : Printable (int value) :=
  .number (Number.isDecimal_ofInt value)

theorem toText?_string (value : String) : (string value).toText? = some value :=
  rfl

theorem toInt?_int (value : Int) : (int value).toInt? = some value :=
  Number.toInt?_ofInt value

theorem toUInt64?_nat (value : UInt64) : (nat value.toNat).toUInt64? = some value := by
  have small := value.toNat_lt
  have fits : (0 : Int) ≤ value.toNat ∧ (value.toNat : Int) < UInt64.size := by
    simp only [UInt64.size]
    omega
  rw [toUInt64?, toNatBelow?, nat, toInt?_int, Option.bind_some, if_pos fits, Int.toNat_natCast,
    Option.map_some, UInt64.ofNat_toNat]

theorem toUInt32?_nat (value : UInt32) : (nat value.toNat).toUInt32? = some value := by
  have small := value.toNat_lt
  have fits : (0 : Int) ≤ value.toNat ∧ (value.toNat : Int) < UInt32.size := by
    simp only [UInt32.size]
    omega
  rw [toUInt32?, toNatBelow?, nat, toInt?_int, Option.bind_some, if_pos fits, Int.toNat_natCast,
    Option.map_some, UInt32.ofNat_toNat]

theorem toInt32?_int (value : Int32) : (int value.toInt).toInt32? = some value := by
  have fits : -2147483648 ≤ value.toInt ∧ value.toInt ≤ 2147483647 :=
    ⟨value.le_toInt, Int.le_of_lt_add_one value.toInt_lt⟩
  simp only [toInt32?, toInt?_int, Option.bind_some, fits, and_self, ↓reduceIte, Int32.ofInt_toInt]

theorem toDate?_ofDate (date : Date) : (ofDate date).toDate? = some date := by
  simp only [toDate?, ofDate, toText?, Option.bind_some, String.toList_ofList, Date.parse?_render]

/-! ## Options and lists -/

section

variable {β : Type} {encode : β → Json} {decode : Json → Option β}

theorem printable_ofOption (each : ∀ value, Printable (encode value)) (value? : Option β) :
    Printable (ofOption encode value?) := by
  cases value? with
  | none => exact .null
  | some value => exact each value

theorem printable_ofList (each : ∀ value, Printable (encode value)) (values : List β) :
    Printable (ofList encode values) := by
  apply Printable.array
  intro item member
  obtain ⟨value, -, rfl⟩ := List.mem_map.mp member
  exact each value

theorem toOption?_ofOption (each : ∀ value, decode (encode value) = some value)
    (given : ∀ value, encode value ≠ null) (value? : Option β) :
    (ofOption encode value?).toOption? decode = some value? := by
  cases value? with
  | none => rfl
  | some value =>
    rw [ofOption, toOption?.eq_def]
    split
    · rename_i isNull
      exact absurd isNull (given value)
    · rw [each]
      rfl

theorem toList?_ofList (each : ∀ value, decode (encode value) = some value) (values : List β) :
    (ofList encode values).toList? decode = some values :=
  Lists.mapM_map_eq_some fun value _ => each value

end

/-! ## Maps -/

section

variable {κ ν : Type} [OrderKey κ] {name : κ → String} {key? : String → Option κ}
  {encode : ν → Json} {decode : Json → Option ν}

theorem printable_ofMap (each : ∀ value, Printable (encode value)) (map : SortedMap κ ν) :
    Printable (ofMap name encode map) := by
  apply Printable.object
  intro field member
  obtain ⟨entry, -, rfl⟩ := List.mem_map.mp member
  exact each entry.2

/-- A map is read back when its keys are. -/
theorem toMap?_ofMap {map : SortedMap κ ν} (keys : ∀ key ∈ map.keys, key? (name key) = some key)
    (each : ∀ value, decode (encode value) = some value) :
    (ofMap name encode map).toMap? key? decode = some map := by
  have entries : (map.entries.map fun entry => (name entry.1, encode entry.2)).mapM
      (fun field => do
        let key ← key? field.1
        let value ← decode field.2
        return (key, value)) = some map.entries := by
    apply Lists.mapM_map_eq_some
    intro entry member
    simp [keys entry.1 (List.mem_map_of_mem member), each]
  rw [ofMap, toMap?, entries, Option.bind_eq_bind, Option.bind_some, SortedMap.ofList_entries]
  rfl

/-- A map with texts as keys is read back. -/
theorem toMap?_ofMap_text (each : ∀ value, decode (encode value) = some value)
    (map : SortedMap String ν) :
    (ofMap (fun key => key) encode map).toMap? some decode = some map :=
  toMap?_ofMap (fun _ _ => rfl) each

/-- A map with a key that cannot be read is not read. -/
theorem toMap?_ofMap_eq_none {map : SortedMap κ ν} {key : κ} (member : key ∈ map.keys)
    (unread : key? (name key) = none) : (ofMap name encode map).toMap? key? decode = none := by
  obtain ⟨entry, inside, rfl⟩ := List.mem_map.mp member
  have entries : (map.entries.map fun entry => (name entry.1, encode entry.2)).mapM
      (fun field => do
        let key ← key? field.1
        let value ← decode field.2
        return (key, value)) = none := by
    apply Lists.mapM_eq_none (List.mem_map_of_mem inside)
    simp [unread]
  rw [ofMap, toMap?, entries, Option.bind_eq_bind, Option.bind_none]

end

/-! ## Records -/

theorem some_bind {α β : Type} (value : α) (next : α → Option β) :
    some value >>= next = next value :=
  rfl

theorem Field.required_eq {α : Type} {field : Field} {value : Json} {decode : Json → Option α}
    {read : Option α} (given : field = .given value) (decoded : decode value = read) :
    field.required decode = read := by
  rw [given, ← decoded]
  rfl

theorem Field.orDefault_eq {α : Type} {field : Field} {value : Json} (fallback : α)
    {decode : Json → Option α} {read : Option α} (given : field = .given value)
    (decoded : decode value = read) : field.orDefault fallback decode = read := by
  rw [given, ← decoded]
  rfl

theorem Field.optional_eq {α : Type} {field : Field} {encode : α → Json} {decode : Json → Option α}
    {value? : Option α} (given : field = .given (ofOption encode value?))
    (each : ∀ value, decode (encode value) = some value) (shown : ∀ value, encode value ≠ null) :
    field.optional decode = some value? := by
  rw [given]
  exact toOption?_ofOption each shown value?

theorem Field.optional_text_eq {field : Field} {text? : Option String}
    (given : field = .given (ofOption string text?)) : field.optional toText? = some text? :=
  Field.optional_eq given toText?_string fun _ => Json.noConfusion

/-- A record that gives each field once has for each name the value given with it. -/
theorem exists_record?_eq (json : Json) (names : List String) {fields : List (String × Json)}
    (shape : json = object fields) (named : fields.map (·.1) = names) (distinct : names.Nodup) :
    ∃ field, json.record? names = some field ∧
      ∀ (place : Nat) name value, fields[place]? = some (name, value) →
        field name = .given value := by
  subst shape named
  have once : ((fields.map (·.1)).all fun name =>
      (fields.countP fun field => field.1 == name) ≤ 1) = true := by
    rw [List.all_eq_true]
    intro name _
    have count := List.nodup_iff_count_le_one.mp distinct name
    rw [List.count_eq_countP, List.countP_map] at count
    exact decide_eq_true count
  unfold record?
  refine ⟨_, if_pos once, fun place name value here => ?_⟩
  have found : fields.find? (fun field => field.1 == name) = some (name, value) :=
    find?_eq_some_of_mem distinct (List.mem_of_getElem? here)
  simp only [found]

end DeckBuilder.Json
