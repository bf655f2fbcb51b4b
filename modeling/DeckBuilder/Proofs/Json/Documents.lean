import DeckBuilder.Proofs.Json.Literals
import DeckBuilder.Proofs.Lists

/-! # Documents

A document is read back from its compact text. What is proved of one value is said with the rest of
the text still to come, so that it applies inside arrays and objects, and for every bound on the
nesting that is twice the length of the text, which `parse?` allows for.
-/

namespace DeckBuilder.Json

open Text

/-- A document that has a text of its own: nothing in it is garbled, and fractions have decimal
digits. -/
inductive Printable : Json → Prop where
  | null : Printable null
  | bool (value : Bool) : Printable (bool value)
  | number {value : Number} (decimal : value.IsDecimal) : Printable (number value)
  | string (value : String) : Printable (string value)
  | array {items : List Json} (each : ∀ item ∈ items, Printable item) : Printable (array items)
  | object {fields : List (String × Json)} (each : ∀ field ∈ fields, Printable field.2) :
    Printable (object fields)

/-- The document is read back from its text, when what follows cannot continue a number. -/
def Scans (json : Json) : Prop :=
  ∀ bound rest, 2 * json.render.length ≤ bound → EndsNumber rest →
    scanValue bound (json.render ++ rest) = some (json, rest)

theorem endsNumber_cons {c : Char} {rest : List Char}
    (ends : digitValue? c = none ∧ c ≠ '.' ∧ c ≠ 'e' ∧ c ≠ 'E') : EndsNumber (c :: rest) := by
  intro d here
  rw [List.head?_cons, Option.mem_some_iff] at here
  rwa [← here]

/-- A character that a document can start with: no blank, and no bracket that closes one. -/
def Opens (c : Char) : Prop :=
  isJsonBlank c = false ∧ c ≠ ']' ∧ c ≠ '}'

instance (c : Char) : Decidable (Opens c) :=
  inferInstanceAs (Decidable (_ ∧ _))

theorem opens_of_isSome_digitValue? {c : Char} (isDigit : (digitValue? c).isSome) : Opens c := by
  have apart : ∀ other, digitValue? other = none → c ≠ other :=
    fun _ => ne_of_isSome_digitValue? isDigit
  refine ⟨?_, apart ']' rfl, apart '}' rfl⟩
  simp [isJsonBlank, apart ' ' rfl, apart '\n' rfl, apart '\t' rfl, apart '\r' rfl]

theorem exists_number_render_eq_cons (value : Number) :
    ∃ c rest, value.render = c :: rest ∧ (c = '-' ∨ (digitValue? c).isSome) := by
  obtain ⟨c, digits, numeral, isDigit⟩ := exists_numeral_eq_cons value.whole
  unfold Number.render
  by_cases negative : value.negative
  · rw [if_pos negative]
    exact ⟨_, _, rfl, .inl rfl⟩
  · rw [if_neg negative, numeral]
    exact ⟨_, _, rfl, .inr isDigit⟩

theorem exists_render_eq_cons (json : Json) : ∃ c rest, json.render = c :: rest ∧ Opens c := by
  cases json with
  | bool value => cases value <;> exact ⟨_, _, rfl, by decide⟩
  | number value =>
    obtain ⟨c, rest, render, starts⟩ := exists_number_render_eq_cons value
    refine ⟨c, rest, render, ?_⟩
    rcases starts with rfl | isDigit
    · decide
    · exact opens_of_isSome_digitValue? isDigit
  | null | string | array | object | garbled => exact ⟨_, _, rfl, by decide⟩

theorem skipBlanks_cons {c : Char} (dense : isJsonBlank c = false) (rest : List Char) :
    skipBlanks (c :: rest) = c :: rest :=
  List.dropWhile_cons_of_neg (by simp [dense])

theorem skipBlanks_render (json : Json) (rest : List Char) :
    skipBlanks (json.render ++ rest) = json.render ++ rest := by
  obtain ⟨c, tail, render, opens⟩ := exists_render_eq_cons json
  rw [render, List.cons_append, skipBlanks_cons opens.1]

theorem Scans.of_succ {json : Json}
    (scans : ∀ bound rest, 2 * json.render.length ≤ bound + 1 → EndsNumber rest →
      scanValue (bound + 1) (json.render ++ rest) = some (json, rest)) : Scans json := by
  intro bound rest enough ends
  -- No document has an empty text, so a bound that allows for one is positive.
  obtain ⟨c, tail, render, -⟩ := exists_render_eq_cons json
  cases bound with
  | zero => simp [render] at enough
  | succ bound => exact scans bound rest enough ends

/-! ## Plain values -/

theorem scans_null : Scans null :=
  .of_succ fun _ _ _ _ => rfl

theorem scans_bool (value : Bool) : Scans (bool value) := by
  apply Scans.of_succ
  intro bound rest _ _
  cases value <;> rfl

theorem scans_number {value : Number} (decimal : value.IsDecimal) : Scans (number value) := by
  apply Scans.of_succ
  intro bound rest _ ends
  obtain ⟨c, tail, render, starts⟩ := exists_number_render_eq_cons value
  have read := scanNumber_render decimal ends
  have apart : ∀ other, other ≠ '-' → digitValue? other = none → c ≠ other := by
    intro other noSign noDigit
    rcases starts with rfl | isDigit
    · exact noSign.symm
    · exact ne_of_isSome_digitValue? isDigit noDigit
  rw [render, List.cons_append] at read
  rw [Json.render, render, List.cons_append, scanValue.eq_def]
  dsimp only
  split
  -- All other cases start with a character that starts no number.
  case h_7 => rw [read]; rfl
  all_goals exact absurd rfl (apart _ (by decide) rfl)

theorem scans_string (value : String) : Scans (string value) := by
  apply Scans.of_succ
  intro bound rest _ _
  have read := scanText_renderString value rest
  rw [render, renderString, List.append_assoc, List.singleton_append, List.cons_append]
  simp only [scanValue, read, Option.bind_eq_bind, Option.bind_some]
  rfl

/-! ## Arrays -/

theorem exists_renderItems_eq (item : Json) (others : List Json) :
    ∃ tail, renderItems (item :: others) = item.render ++ tail := by
  cases others with
  | nil => exact ⟨[], by rw [renderItems, List.append_nil]⟩
  | cons next others => exact ⟨_, by rw [renderItems]⟩

/-- Items are read up to the bracket that closes their array. -/
theorem scanItems_render {items : List Json} (nonempty : items ≠ [])
    (each : ∀ item ∈ items, Scans item) (rest : List Char) :
    ∀ bound, 2 * (renderItems items).length + 1 ≤ bound →
      scanItems bound (renderItems items ++ ']' :: rest) = some (items, rest) := by
  induction items with
  | nil => exact absurd rfl nonempty
  | cons item others ih =>
    intro bound enough
    -- Every item takes one from the bound, and its comma pays for that.
    obtain ⟨bound, rfl⟩ : ∃ smaller, bound = smaller + 1 := ⟨bound - 1, by omega⟩
    have scans := each item List.mem_cons_self
    cases others with
    | nil =>
      rw [renderItems] at enough ⊢
      have read := scans bound (']' :: rest) (by omega) (endsNumber_cons (by decide))
      rw [scanItems, read]
      rfl
    | cons next others =>
      rw [renderItems, List.length_append, List.length_cons] at enough
      have read := scans bound (',' :: (renderItems (next :: others) ++ ']' :: rest)) (by omega)
        (endsNumber_cons (by decide))
      have more := ih (List.cons_ne_nil _ _) (fun other later => each other (.tail _ later))
        bound (by omega)
      have dense : skipBlanks (renderItems (next :: others) ++ ']' :: rest) =
          renderItems (next :: others) ++ ']' :: rest := by
        obtain ⟨tail, items⟩ := exists_renderItems_eq next others
        rw [items, List.append_assoc, skipBlanks_render]
      rw [renderItems, List.append_assoc, List.cons_append, scanItems, read]
      simp only [Option.bind_eq_bind, Option.bind_some, skipBlanks_cons (c := ',') rfl, dense, more]
      rfl

theorem scans_array {items : List Json} (each : ∀ item ∈ items, Scans item) :
    Scans (array items) := by
  apply Scans.of_succ
  intro bound rest enough _
  rw [render, List.append_assoc, List.singleton_append, List.cons_append]
  rw [render, List.length_append, List.length_cons, List.length_singleton] at enough
  cases items with
  | nil => rfl
  | cons item others =>
    have read := scanItems_render (List.cons_ne_nil item others) each rest bound (by omega)
    -- The first item starts with no blank and with no closing bracket.
    obtain ⟨tail, items⟩ := exists_renderItems_eq item others
    obtain ⟨c, after, first, opens⟩ := exists_render_eq_cons item
    rw [items, first, List.cons_append, List.cons_append] at read ⊢
    simp only [scanValue, skipBlanks_cons opens.1]
    split
    · rename_i same
      exact absurd (List.cons.inj same).1 opens.2.1
    · simp only [read, Option.bind_eq_bind, Option.bind_some]
      rfl

/-! ## Objects -/

theorem exists_renderFields_eq (field : String × Json) (others : List (String × Json)) :
    ∃ tail, renderFields (field :: others) = '"' :: tail := by
  cases others <;> exact ⟨_, by rw [renderFields, renderString]; rfl⟩

/-- Fields are read up to the brace that closes their object. -/
theorem scanFields_render {fields : List (String × Json)} (nonempty : fields ≠ [])
    (each : ∀ field ∈ fields, Scans field.2) (rest : List Char) :
    ∀ bound, 2 * (renderFields fields).length + 1 ≤ bound →
      scanFields bound (renderFields fields ++ '}' :: rest) =
        some (fields.map fun field => (some field.1, field.2), rest) := by
  induction fields with
  | nil => exact absurd rfl nonempty
  | cons field others ih =>
    intro bound enough
    obtain ⟨bound, rfl⟩ : ∃ smaller, bound = smaller + 1 := ⟨bound - 1, by omega⟩
    obtain ⟨name, value⟩ := field
    have scans : Scans value := each (name, value) List.mem_cons_self
    cases others with
    | nil =>
      rw [renderFields, List.length_append, List.length_cons] at enough
      have read := scans bound ('}' :: rest) (by omega) (endsNumber_cons (by decide))
      have label := scanText_renderString name (':' :: (value.render ++ '}' :: rest))
      rw [renderFields, renderString]
      simp only [List.cons_append, List.append_assoc, List.nil_append, scanFields, label,
        Option.bind_eq_bind, Option.bind_some, skipBlanks_cons (c := ':') rfl, skipBlanks_render,
        read, skipBlanks_cons (c := '}') rfl]
      rfl
    | cons next others =>
      rw [renderFields, List.length_append, List.length_cons, List.length_append,
        List.length_cons] at enough
      have read := scans bound (',' :: (renderFields (next :: others) ++ '}' :: rest)) (by omega)
        (endsNumber_cons (by decide))
      have label := scanText_renderString name
        (':' :: (value.render ++ ',' :: (renderFields (next :: others) ++ '}' :: rest)))
      have more := ih (List.cons_ne_nil _ _) (fun other later => each other (.tail _ later))
        bound (by omega)
      have dense : skipBlanks (renderFields (next :: others) ++ '}' :: rest) =
          renderFields (next :: others) ++ '}' :: rest := by
        obtain ⟨tail, fields⟩ := exists_renderFields_eq next others
        rw [fields, List.cons_append, skipBlanks_cons rfl]
      rw [renderFields, renderString]
      simp only [List.cons_append, List.append_assoc, List.nil_append, scanFields, label,
        Option.bind_eq_bind, Option.bind_some, skipBlanks_cons (c := ':') rfl, skipBlanks_render,
        read, skipBlanks_cons (c := ',') rfl, dense, more]
      rfl

theorem ofFields_map_some (fields : List (String × Json)) :
    ofFields (fields.map fun field => (some field.1, field.2)) = object fields := by
  have named : (fields.map fun field => (some field.1, field.2)).mapM
      (fun field => field.1.map fun name => (name, field.2)) = some fields :=
    Lists.mapM_map_eq_some fun _ _ => rfl
  rw [ofFields, named]

theorem scans_object {fields : List (String × Json)} (each : ∀ field ∈ fields, Scans field.2) :
    Scans (object fields) := by
  apply Scans.of_succ
  intro bound rest enough _
  rw [render, List.append_assoc, List.singleton_append, List.cons_append]
  rw [render, List.length_append, List.length_cons, List.length_singleton] at enough
  cases fields with
  | nil => rfl
  | cons field others =>
    have read := scanFields_render (List.cons_ne_nil field others) each rest bound (by omega)
    obtain ⟨tail, fields⟩ := exists_renderFields_eq field others
    rw [fields, List.cons_append] at read ⊢
    simp only [scanValue, skipBlanks_cons (c := '"') rfl]
    split
    · rename_i same
      exact absurd (List.cons.inj same).1 (by decide)
    · simp only [read, Option.bind_eq_bind, Option.bind_some, ofFields_map_some]
      rfl

/-! ## Whole texts -/

theorem Printable.scans {json : Json} (printable : Printable json) : Scans json := by
  induction printable with
  | null => exact scans_null
  | bool value => exact scans_bool value
  | number decimal => exact scans_number decimal
  | string value => exact scans_string value
  | array _ each => exact scans_array each
  | object _ each => exact scans_object each

/-- A printable document is read back from its compact text. -/
theorem parse?_compact {json : Json} (printable : Printable json) :
    parse? json.compact = some json := by
  have chars : json.compact.toList = json.render := String.toList_ofList
  have dense := skipBlanks_render json []
  have read := printable.scans (2 * json.render.length + 2) [] (by omega) fun _ none => by
    cases none
  rw [List.append_nil] at dense read
  simp only [parse?, chars, dense, read, Option.bind_eq_bind, Option.bind_some]
  rfl

end DeckBuilder.Json
