import DeckBuilder.Text.Decimal
import Mathlib.Data.List.Basic

/-! # Numerals

The digits of a numeral denote the number and have no leading zero, and readers of digits get the
number back.
-/

namespace DeckBuilder.Text

/-- The digits of a number from the highest one on, without leading zeros. -/
structure Spells (digits : List Nat) (n : Nat) : Prop where
  small : ∀ digit ∈ digits, digit < 10
  value : digits.foldl (fun value digit => value * 10 + digit) 0 = n
  nonempty : digits ≠ []
  noLeadingZero : ∀ rest, digits = 0 :: rest → rest = []

theorem Spells.single {digit : Nat} (small : digit < 10) : Spells [digit] digit := by
  refine ⟨?_, ?_, List.cons_ne_nil _ _, ?_⟩
  · simpa using small
  · simp
  · intro rest same
    cases same
    rfl

theorem Spells.append {digits : List Nat} {n digit : Nat} (spells : Spells digits n)
    (positive : 0 < n) (small : digit < 10) : Spells (digits ++ [digit]) (n * 10 + digit) := by
  refine ⟨?_, ?_, by simp, ?_⟩
  · intro other member
    rcases List.mem_append.mp member with earlier | last
    · exact spells.small other earlier
    · rwa [List.mem_singleton.mp last]
  · simp [spells.value]
  · intro rest same
    obtain ⟨head, tail, rfl⟩ := List.exists_cons_of_ne_nil spells.nonempty
    obtain ⟨rfl, -⟩ := List.cons.inj same
    -- A number that starts with zero is zero.
    have zero := spells.noLeadingZero tail rfl
    have value := spells.value
    rw [zero] at value
    simp only [List.foldl_cons, List.foldl_nil] at value
    omega

theorem exists_numeral_eq (n : Nat) :
    ∃ digits, Spells digits n ∧ numeral n = digits.map Nat.digitChar := by
  induction n using Nat.strongRecOn with
  | ind n ih =>
    unfold numeral at ih ⊢
    by_cases single : n < 10
    · exact ⟨[n], .single single, Nat.toDigits_of_lt_base single⟩
    · obtain ⟨digits, spells, numeral⟩ := ih (n / 10) (by omega)
      refine ⟨digits ++ [n % 10], ?_, ?_⟩
      · have spelled : Spells (digits ++ [n % 10]) (n / 10 * 10 + n % 10) :=
          spells.append (by omega) (by omega)
        rwa [show n / 10 * 10 + n % 10 = n by omega] at spelled
      · rw [Nat.toDigits_of_base_le (by decide) (by omega), numeral, List.map_append]
        rfl

/-- The characters of a numeral are digits. -/
theorem exists_digit_of_mem_numeral {n : Nat} {c : Char} (member : c ∈ numeral n) :
    ∃ digit < 10, Nat.digitChar digit = c := by
  obtain ⟨listed, spells, numeral⟩ := exists_numeral_eq n
  rw [numeral] at member
  obtain ⟨digit, isDigit, same⟩ := List.mem_map.mp member
  exact ⟨digit, spells.small digit isDigit, same⟩

theorem not_mem_numeral {c : Char} (other : ∀ digit < 10, Nat.digitChar digit ≠ c) (n : Nat) :
    c ∉ numeral n := by
  intro member
  obtain ⟨digit, small, same⟩ := exists_digit_of_mem_numeral member
  exact other digit small same

theorem digitValue?_digitChar {digit : Nat} (small : digit < 10) :
    digitValue? (Nat.digitChar digit) = some digit := by
  have code := Nat.toNat_digitChar_of_lt_ten small
  have zero : '0'.toNat = 48 := rfl
  have nine : '9'.toNat = 57 := rfl
  rw [digitValue?, if_pos (by omega), code, zero]
  simp

theorem exists_digit_of_digitValue? {c : Char} {digit : Nat} (reads : digitValue? c = some digit) :
    digit < 10 ∧ c = Nat.digitChar digit := by
  rw [digitValue?] at reads
  obtain ⟨⟨low, high⟩, same⟩ := Option.ite_none_right_eq_some.mp reads
  have difference := Option.some_inj.mp same
  have zero : '0'.toNat = 48 := rfl
  have nine : '9'.toNat = 57 := rfl
  have small : digit < 10 := by omega
  refine ⟨small, Char.toNat_inj.mp ?_⟩
  rw [Nat.toNat_digitChar_of_lt_ten small]
  omega

theorem ne_of_isSome_digitValue? {c other : Char} (isDigit : (digitValue? c).isSome)
    (noDigit : digitValue? other = none) : c ≠ other := by
  rintro rfl
  rw [noDigit] at isDigit
  cases isDigit

/-- A text starts with no digit. -/
def NoDigit (text : List Char) : Prop :=
  ∀ c ∈ text.head?, digitValue? c = none

theorem noDigit_cons {c : Char} {rest : List Char} (other : digitValue? c = none) :
    NoDigit (c :: rest) := by
  intro d here
  rw [List.head?_cons, Option.mem_some_iff] at here
  rwa [← here]

theorem readDigits_map_digitChar {digits : List Nat} (small : ∀ digit ∈ digits, digit < 10)
    (value : Nat) : readDigits value (digits.map Nat.digitChar) =
      some (digits.foldl (fun value digit => value * 10 + digit) value) := by
  induction digits generalizing value with
  | nil => rfl
  | cons digit rest ih =>
    have head := digitValue?_digitChar (small digit List.mem_cons_self)
    rw [List.map_cons, readDigits, head, Option.bind_some,
      ih fun other later => small other (.tail _ later)]
    rfl

theorem natural?_map_digitChar {digits : List Nat} (small : ∀ digit ∈ digits, digit < 10)
    (nonempty : digits ≠ []) : natural? (digits.map Nat.digitChar) =
      some (digits.foldl (fun value digit => value * 10 + digit) 0) := by
  have filled : (digits.map Nat.digitChar).isEmpty = false := by simpa using nonempty
  rw [natural?, filled, readDigits_map_digitChar small]
  rfl

/-- The text consists of ASCII digits, at least one, which denote the number. There may be leading
zeros. -/
def Denotes (text : List Char) (n : Nat) : Prop :=
  ∃ digits : List Nat, text = digits.map Nat.digitChar ∧ (∀ digit ∈ digits, digit < 10) ∧
    digits ≠ [] ∧ digits.foldl (fun value digit => value * 10 + digit) 0 = n

theorem exists_digits_of_readDigits {text : List Char} {value n : Nat}
    (reads : readDigits value text = some n) :
    ∃ digits : List Nat, text = digits.map Nat.digitChar ∧ (∀ digit ∈ digits, digit < 10) ∧
      digits.foldl (fun value digit => value * 10 + digit) value = n := by
  induction text generalizing value with
  | nil => exact ⟨[], rfl, by simp, Option.some_inj.mp reads⟩
  | cons c rest ih =>
    obtain ⟨digit, here, later⟩ := Option.bind_eq_some_iff.mp reads
    obtain ⟨small, rfl⟩ := exists_digit_of_digitValue? here
    obtain ⟨digits, rfl, others, denotes⟩ := ih later
    exact ⟨digit :: digits, rfl, List.forall_mem_cons.mpr ⟨small, others⟩, denotes⟩

theorem natural?_eq_some_iff {text : List Char} {n : Nat} :
    natural? text = some n ↔ Denotes text n := by
  constructor
  · intro reads
    obtain ⟨some, reads⟩ := Option.ite_none_left_eq_some.mp reads
    obtain ⟨digits, rfl, small, denotes⟩ := exists_digits_of_readDigits reads
    exact ⟨digits, rfl, small, by simpa using some, denotes⟩
  · rintro ⟨digits, rfl, small, some, rfl⟩
    exact natural?_map_digitChar small some

theorem natural?_numeral (n : Nat) : natural? (numeral n) = some n := by
  obtain ⟨digits, spells, numeral⟩ := exists_numeral_eq n
  rw [numeral, natural?_map_digitChar spells.small spells.nonempty, spells.value]

theorem numeral_inj {first second : Nat} : numeral first = numeral second ↔ first = second := by
  refine ⟨fun same => ?_, congrArg numeral⟩
  have read := natural?_numeral first
  rwa [same, natural?_numeral, Option.some_inj, eq_comm] at read

theorem denotes_numeral (n : Nat) : Denotes (numeral n) n :=
  natural?_eq_some_iff.mp (natural?_numeral n)

theorem Denotes.exists_eq_cons {text : List Char} {n : Nat} (denotes : Denotes text n) :
    ∃ c rest, text = c :: rest ∧ (digitValue? c).isSome := by
  obtain ⟨digits, rfl, small, some, -⟩ := denotes
  obtain ⟨digit, rest, rfl⟩ := List.exists_cons_of_ne_nil some
  refine ⟨Nat.digitChar digit, rest.map Nat.digitChar, rfl, ?_⟩
  rw [digitValue?_digitChar (small digit List.mem_cons_self)]
  rfl

/-- A numeral starts with a digit. -/
theorem exists_numeral_eq_cons (n : Nat) :
    ∃ c rest, numeral n = c :: rest ∧ (digitValue? c).isSome :=
  (denotes_numeral n).exists_eq_cons

theorem word?_of_denotes {text : List Char} {value : UInt32} (denotes : Denotes text value.toNat) :
    word? text = some value := by
  have read := natural?_eq_some_iff.mpr denotes
  obtain ⟨c, rest, rfl, isDigit⟩ := denotes.exists_eq_cons
  have unsigned : c ≠ '+' := ne_of_isSome_digitValue? isDigit rfl
  unfold word?
  split
  · rename_i same
    exact absurd (List.cons.inj same).1 unsigned
  · have small : value.toNat < UInt32.size := value.toNat_lt
    simp only [read, Option.bind_some, small, ↓reduceIte, UInt32.ofNat_toNat]

theorem word?_numeral (value : UInt32) : word? (numeral value.toNat) = some value :=
  word?_of_denotes (denotes_numeral _)

/-- A lower-case letter is no digit. -/
theorem digitValue?_of_isLower {c : Char} (letter : c.isLower) : digitValue? c = none := by
  refine Option.eq_none_iff_forall_ne_some.mpr fun digit reads => ?_
  obtain ⟨small, rfl⟩ := exists_digit_of_digitValue? reads
  have digits : ∀ digit < 10, (Nat.digitChar digit).isLower = false := by decide
  rw [digits digit small] at letter
  cases letter

/-- What starts with a lower-case letter is not read as digits. -/
theorem word?_cons_of_isLower {c : Char} (letter : c.isLower) (rest : List Char) :
    word? (c :: rest) = none := by
  unfold word?
  split
  · rename_i same
    rw [(List.cons.inj same).1] at letter
    cases letter
  · simp only [natural?, List.isEmpty_cons, Bool.false_eq_true, ↓reduceIte, readDigits,
      digitValue?_of_isLower letter, Option.bind_none]

end DeckBuilder.Text
