import DeckBuilder.Json.Parser
import DeckBuilder.Json.Printer
import DeckBuilder.Proofs.Text.Decimal

/-! # Literals

String and number literals are read back from the text that is written for them, whatever follows:
a string ends at its own quote, and a number at the first character that cannot continue it.
-/

namespace DeckBuilder.Json

open Text

/-! ## Strings -/

theorem hexValue?_hexDigit : ∀ n < 16, hexValue? (hexDigit n) = some n := by
  decide

theorem hexUnit?_hexDigit {n : Nat} (control : n < 0x20) :
    hexUnit? '0' '0' (hexDigit (n / 16)) (hexDigit (n % 16)) = some n := by
  have zero : hexValue? '0' = some 0 := rfl
  simp only [hexUnit?, zero, hexValue?_hexDigit (n / 16) (by omega),
    hexValue?_hexDigit (n % 16) (by omega), Option.bind_eq_bind, Option.bind_some]
  congr 1
  omega

/-- What reading a string gives when its first character is read already. -/
def readAfter (c : Char) (read : Option (List Nat × List Char)) : Option (List Nat × List Char) :=
  read.map fun read => (c.toNat :: read.1, read.2)

theorem scanString_escape {name c : Char} (short : name ≠ 'u') (known : escaped? name = some c)
    (rest : List Char) :
    scanString ('\\' :: name :: rest) = readAfter c (scanString rest) := by
  rw [scanString, known]
  · cases scanString rest <;> rfl
  · intro a b c d rest same
    exact absurd same short

theorem scanString_control {c : Char} (control : c.toNat < 0x20) (rest : List Char) :
    scanString ('\\' :: 'u' :: '0' :: '0' :: hexDigit (c.toNat / 16) :: hexDigit (c.toNat % 16) ::
      rest) = readAfter c (scanString rest) := by
  rw [scanString, hexUnit?_hexDigit control]
  cases scanString rest <;> rfl

theorem scanString_plain {c : Char} (noQuote : c ≠ '"') (noEscape : c ≠ '\\')
    (printed : ¬ c.toNat < 0x20) (rest : List Char) :
    scanString (c :: rest) = readAfter c (scanString rest) := by
  rw [scanString]
  · cases scanString rest <;> simp [readAfter, noEscape, printed]
  all_goals simp_all

theorem scanString_renderChar (c : Char) (rest : List Char) :
    scanString (renderChar c ++ rest) = readAfter c (scanString rest) := by
  unfold renderChar
  split
  -- Characters without an escape of their own are in the last case.
  case h_8 noQuote noEscape _ _ _ _ _ =>
    split
    · rename_i control
      exact scanString_control control rest
    · rename_i printed
      exact scanString_plain noQuote noEscape printed rest
  all_goals exact scanString_escape (by decide) rfl rest

theorem scanString_flatMap_renderChar (text rest : List Char) :
    scanString (text.flatMap renderChar ++ '"' :: rest) = some (text.map Char.toNat, rest) := by
  induction text with
  | nil => rw [List.flatMap_nil, List.nil_append, scanString, List.map_nil]
  | cons c text ih =>
    rw [List.flatMap_cons, List.append_assoc, scanString_renderChar, ih]
    rfl

theorem pairUnits_map_toNat (text : List Char) : pairUnits (text.map Char.toNat) = some text := by
  induction text with
  | nil => rfl
  | cons c text ih =>
    have valid : c.toNat < 0xD800 ∨ 0xDFFF < c.toNat := c.valid.imp id And.left
    have noLeading : isLeading c.toNat = false := by
      simp only [isLeading, Bool.and_eq_false_iff, decide_eq_false_iff_not]
      omega
    have noTrailing : isTrailing c.toNat = false := by
      simp only [isTrailing, Bool.and_eq_false_iff, decide_eq_false_iff_not]
      omega
    -- Code points of characters are no surrogates, so there is nothing to pair.
    rw [List.map_cons, pairUnits.eq_def]
    simp only [noLeading, noTrailing, Bool.false_eq_true, ↓reduceIte, ih, Option.map_some,
      Char.ofNat_toNat]

theorem scanText_renderString (text : String) (rest : List Char) :
    scanText (text.toList.flatMap renderChar ++ '"' :: rest) = some (some text, rest) := by
  rw [scanText, scanString_flatMap_renderChar]
  simp [pairUnits_map_toNat]

/-! ## Numbers -/

/-- A number whose fraction has decimal digits. -/
def Number.IsDecimal (number : Number) : Prop :=
  ∀ digit ∈ number.fraction, digit < 10

theorem Number.isDecimal_ofInt (value : Int) : (ofInt value).IsDecimal :=
  fun _ none => by cases none

/-- A text that cannot continue a number. -/
def EndsNumber (text : List Char) : Prop :=
  ∀ c ∈ text.head?, digitValue? c = none ∧ c ≠ '.' ∧ c ≠ 'e' ∧ c ≠ 'E'

theorem EndsNumber.noDigit {text : List Char} (ends : EndsNumber text) : NoDigit text :=
  fun c here => (ends c here).1

theorem scanDigits_append {digits : List Nat} (small : ∀ digit ∈ digits, digit < 10)
    {rest : List Char} (ends : NoDigit rest) :
    scanDigits (digits.map Nat.digitChar ++ rest) = (digits, rest) := by
  induction digits with
  | nil =>
    cases rest with
    | nil => rfl
    | cons c rest =>
      have other : digitValue? c = none := ends c rfl
      simp [scanDigits, other]
  | cons digit digits ih =>
    have head := digitValue?_digitChar (small digit List.mem_cons_self)
    rw [List.map_cons, List.cons_append, scanDigits, head,
      ih fun other later => small other (.tail _ later)]

theorem scanWhole_numeral (n : Nat) {rest : List Char} (ends : NoDigit rest) :
    scanWhole (numeral n ++ rest) = some (n, rest) := by
  obtain ⟨digits, spells, numeral⟩ := exists_numeral_eq n
  rw [numeral, scanWhole, scanDigits_append spells.small ends]
  dsimp only
  split
  · exact absurd rfl spells.nonempty
  · exact absurd (spells.noLeadingZero _ rfl) (List.cons_ne_nil _ _)
  · rw [ofDigits, spells.value]

theorem flatMap_numeral {digits : List Nat} (small : ∀ digit ∈ digits, digit < 10) :
    digits.flatMap numeral = digits.map Nat.digitChar := by
  rw [List.map_eq_flatMap]
  refine List.flatMap_congr fun digit member => ?_
  exact Nat.toDigits_of_lt_base (small digit member)

theorem scanFraction_render {digits : List Nat} (small : ∀ digit ∈ digits, digit < 10)
    {rest : List Char} (ends : NoDigit rest) (noPoint : ∀ c ∈ rest.head?, c ≠ '.') :
    scanFraction (renderFraction digits ++ rest) = some (digits, rest) := by
  cases digits with
  | nil =>
    rw [renderFraction, if_pos List.isEmpty_nil, List.nil_append, scanFraction.eq_def]
    split
    · exact absurd rfl (noPoint '.' rfl)
    · rfl
  | cons digit digits =>
    have rendered : renderFraction (digit :: digits) =
        '.' :: (digit :: digits).map Nat.digitChar := by
      rw [renderFraction, flatMap_numeral small]
      rfl
    rw [rendered, List.cons_append, scanFraction, scanDigits_append small ends]
    rfl

theorem scanExponentDigits_numeral (negative : Bool) (n : Nat) {rest : List Char}
    (ends : NoDigit rest) : scanExponentDigits negative (numeral n ++ rest) =
      some (some (if negative then -(n : Int) else n), rest) := by
  obtain ⟨digits, spells, numeral⟩ := exists_numeral_eq n
  simp [scanExponentDigits, numeral, scanDigits_append spells.small ends, spells.nonempty,
    ofDigits, spells.value]

theorem scanExponent_render (exponent : Option Int) {rest : List Char} (ends : EndsNumber rest) :
    scanExponent (renderExponent exponent ++ rest) = some (exponent, rest) := by
  cases exponent with
  | none =>
    rw [renderExponent, List.nil_append, scanExponent.eq_def]
    split
    · exact absurd rfl (ends 'e' rfl).2.2.1
    · exact absurd rfl (ends 'E' rfl).2.2.2
    · rfl
  | some exponent =>
    by_cases negative : exponent < 0
    · have value : -(exponent.natAbs : Int) = exponent := by omega
      have rendered : renderExponent (some exponent) = 'e' :: '-' :: numeral exponent.natAbs := by
        rw [renderExponent, if_pos negative]
        rfl
      rw [rendered, List.cons_append, List.cons_append, scanExponent, scanSignedExponent,
        scanExponentDigits_numeral true _ ends.noDigit, if_pos rfl, value]
    · have value : (exponent.natAbs : Int) = exponent := by omega
      have rendered : renderExponent (some exponent) = 'e' :: numeral exponent.natAbs := by
        rw [renderExponent, if_neg negative]
        rfl
      obtain ⟨c, digits, numeral, isDigit⟩ := exists_numeral_eq_cons exponent.natAbs
      have read := scanExponentDigits_numeral false exponent.natAbs ends.noDigit
      rw [numeral, List.cons_append] at read
      rw [rendered, numeral, List.cons_append, List.cons_append, scanExponent, scanSignedExponent,
        read, if_neg Bool.false_ne_true, value]
      -- The first digit is not taken for a sign.
      all_goals
        intro _ same
        exact ne_of_isSome_digitValue? isDigit rfl (List.cons.inj same).1

theorem noDigit_renderFraction (digits : List Nat) {rest : List Char} (ends : NoDigit rest) :
    NoDigit (renderFraction digits ++ rest) := by
  cases digits with
  | nil => exact ends
  | cons digit digits => exact noDigit_cons rfl

/-- What follows the fraction of a number is no digit and no point. -/
theorem ends_renderExponent (exponent : Option Int) {rest : List Char} (ends : EndsNumber rest) :
    NoDigit (renderExponent exponent ++ rest) ∧
      ∀ c ∈ (renderExponent exponent ++ rest).head?, c ≠ '.' := by
  cases exponent with
  | none => exact ⟨ends.noDigit, fun c here => (ends c here).2.1⟩
  | some exponent =>
    refine ⟨noDigit_cons rfl, fun c here => ?_⟩
    cases here
    decide

theorem scanUnsigned_render {number : Number} (decimal : number.IsDecimal) {rest : List Char}
    (ends : EndsNumber rest) :
    scanUnsigned number.negative (numeral number.whole ++ (renderFraction number.fraction ++
      (renderExponent number.exponent ++ rest))) = some (number, rest) := by
  obtain ⟨noDigit, noPoint⟩ := ends_renderExponent number.exponent ends
  rw [scanUnsigned, scanWhole_numeral _ (noDigit_renderFraction _ noDigit)]
  simp only [Option.bind_eq_bind, Option.bind_some, scanFraction_render decimal noDigit noPoint,
    scanExponent_render _ ends]
  rfl

/-- A number literal is read as its number. -/
theorem scanNumber_render {number : Number} (decimal : number.IsDecimal) {rest : List Char}
    (ends : EndsNumber rest) : scanNumber (number.render ++ rest) = some (number, rest) := by
  have read := scanUnsigned_render decimal ends
  cases negative : number.negative with
  | true =>
    rw [Number.render, if_pos negative]
    simp only [List.cons_append, List.nil_append, List.append_assoc, scanNumber]
    rwa [negative] at read
  | false =>
    obtain ⟨c, digits, numeral, isDigit⟩ := exists_numeral_eq_cons number.whole
    rw [Number.render, negative, if_neg Bool.false_ne_true]
    rw [negative, numeral] at read
    simp only [numeral, List.cons_append, List.nil_append, List.append_assoc] at read ⊢
    rw [scanNumber.eq_def]
    split
    · rename_i same
      exact absurd (List.cons.inj same).1 (ne_of_isSome_digitValue? isDigit rfl)
    · exact read

end DeckBuilder.Json
