import DeckBuilder.Calendar.Date
import DeckBuilder.Proofs.Text.Decimal
import Mathlib.Algebra.Group.Nat.Defs

/-! # Written dates

A date is read back from the text that is written for it: the parts have no blanks around them, a
year without a sign has the four digits that are read without one, and a year of any other number
of digits has a sign.
-/

namespace DeckBuilder.Date

open Text

/-- A padded numeral is a row of digits for the number, at least as many as the width asks for. -/
theorem exists_padded_eq (width n : Nat) :
    ∃ digits : List Nat, (∀ digit ∈ digits, digit < 10) ∧
      digits.foldl (fun value digit => value * 10 + digit) 0 = n ∧ digits ≠ [] ∧
      digits.length = max width (numeral n).length ∧ padded width n = digits.map Nat.digitChar := by
  obtain ⟨digits, spells, numeral⟩ := exists_numeral_eq n
  have zeros : ∀ count, (List.replicate count 0).foldl
      (fun value digit => value * 10 + digit) 0 = 0 := by
    intro count
    induction count with
    | zero => rfl
    | succ count ih => simpa [List.replicate_succ] using ih
  refine ⟨List.replicate (width - digits.length) 0 ++ digits, ?_, ?_, ?_, ?_, ?_⟩
  · intro digit member
    rcases List.mem_append.mp member with zero | spelled
    · rw [List.eq_of_mem_replicate zero]
      decide
    · exact spells.small digit spelled
  · rw [List.foldl_append, zeros, spells.value]
  · simp [spells.nonempty]
  · rw [numeral, List.length_append, List.length_replicate, List.length_map]
    omega
  · simp only [padded, numeral, List.length_map, List.map_append, List.map_replicate]
    rfl

theorem length_numeral_le {n : Nat} (width : Nat) (positive : 0 < width) (below : n < 10 ^ width) :
    (numeral n).length ≤ width :=
  (Nat.length_toDigits_le_iff (by decide) positive).mpr below

/-- Digits are read up to the first character that is none. -/
theorem number?_append {width : Nat} {digits : List Nat} {rest : List Char}
    (small : ∀ digit ∈ digits, digit < 10) (nonempty : digits ≠ []) (fits : digits.length ≤ width)
    (ends : NoDigit rest) : number? width (digits.map Nat.digitChar ++ rest) =
      some (digits.foldl (fun value digit => value * 10 + digit) 0, rest) := by
  have read : ((digits.map Nat.digitChar ++ rest).take width).takeWhile
      (fun c => (digitValue? c).isSome) = digits.map Nat.digitChar := by
    have isDigit : ∀ c ∈ digits.map Nat.digitChar, (digitValue? c).isSome = true := by
      intro c member
      obtain ⟨digit, inside, rfl⟩ := List.mem_map.mp member
      rw [digitValue?_digitChar (small digit inside)]
      rfl
    rw [List.take_append, List.take_of_length_le (by simpa using fits),
      List.takeWhile_append_of_pos isDigit, List.append_right_eq_self]
    cases rest with
    | nil => simp
    | cons c rest =>
      have other : digitValue? c = none := ends c rfl
      cases width - (digits.map Nat.digitChar).length <;> simp [other]
  unfold number?
  simp only [read, natural?_map_digitChar small nonempty, Option.map_some, List.drop_left]

theorem number?_padded {width limit n : Nat} {rest : List Char} (fits : width ≤ limit)
    (short : (numeral n).length ≤ limit) (ends : NoDigit rest) :
    number? limit (padded width n ++ rest) = some (n, rest) := by
  obtain ⟨digits, small, value, nonempty, length, padded⟩ := exists_padded_eq width n
  rw [padded, number?_append small nonempty (by omega) ends, value]

theorem trimStart_padded (width n : Nat) (rest : List Char) :
    trimStart (padded width n ++ rest) = padded width n ++ rest := by
  obtain ⟨digits, small, -, nonempty, -, padded⟩ := exists_padded_eq width n
  obtain ⟨digit, digits, rfl⟩ := List.exists_cons_of_ne_nil nonempty
  have dense : ∀ digit < 10, isBlank (Nat.digitChar digit) = false := by decide
  rw [padded, List.map_cons, List.cons_append, trimStart,
    List.dropWhile_cons_of_neg (by simp [dense digit (small digit List.mem_cons_self)])]

theorem padded_eq_cons (width n : Nat) :
    ∃ c rest, padded width n = c :: rest ∧ (digitValue? c).isSome := by
  obtain ⟨digits, small, -, nonempty, -, padded⟩ := exists_padded_eq width n
  obtain ⟨digit, digits, rfl⟩ := List.exists_cons_of_ne_nil nonempty
  refine ⟨_, _, padded, ?_⟩
  rw [digitValue?_digitChar (small digit List.mem_cons_self)]
  rfl

theorem number?_length_padded (width n : Nat) {rest : List Char} (ends : NoDigit rest) :
    number? (padded width n ++ rest).length (padded width n ++ rest) = some (n, rest) := by
  obtain ⟨digits, -, -, -, length, padded⟩ := exists_padded_eq width n
  have long : (Date.padded width n).length = max width (numeral n).length := by
    rw [padded, List.length_map, length]
  rw [List.length_append]
  exact number?_padded (by omega) (by omega) ends

theorem year?_yearText (year : Int) {rest : List Char} (ends : NoDigit rest) :
    year? (yearText year ++ rest) = some (year, rest) := by
  unfold yearText
  split
  · -- Without a sign at most four digits are read, and the first one is not taken for a sign.
    rename_i four
    obtain ⟨c, digits, padded, isDigit⟩ := padded_eq_cons 4 year.toNat
    have read := number?_padded (Nat.le_refl 4)
      (length_numeral_le (n := year.toNat) 4 (by decide) (by omega)) ends
    rw [padded, List.cons_append] at read ⊢
    rw [year?.eq_def]
    split
    · rename_i same
      exact absurd (List.cons.inj same).1 (ne_of_isSome_digitValue? isDigit rfl)
    · rename_i same
      exact absurd (List.cons.inj same).1 (ne_of_isSome_digitValue? isDigit rfl)
    · simp only [read, Option.map_some, Int.toNat_of_nonneg four.1]
  · by_cases negative : year < 0
    · simp only [negative, ↓reduceIte, List.cons_append, year?, number?_length_padded 4 _ ends,
        Option.map_some]
      congr 2
      omega
    · simp only [negative, ↓reduceIte, List.cons_append, year?, number?_length_padded 4 _ ends,
        Option.map_some]
      congr 2
      omega

theorem trimStart_yearText (year : Int) (rest : List Char) :
    trimStart (yearText year ++ rest) = yearText year ++ rest := by
  unfold yearText
  split
  · exact trimStart_padded _ _ _
  · split <;> rfl

theorem noDigit_dash (rest : List Char) : NoDigit ('-' :: rest) :=
  noDigit_cons rfl

/-- Months and days have at most two digits. -/
theorem IsDay.le {year : Int} {month day : Nat} (isDay : IsDay year month day) :
    month ≤ 12 ∧ day ≤ 31 := by
  obtain ⟨-, -, first, last⟩ := isDay
  unfold daysInMonth at last
  split at last
  · split at last <;> omega
  all_goals omega

theorem parse?_render (date : Date) : parse? date.render = some date := by
  obtain ⟨year, month, day, isDay⟩ := date
  obtain ⟨months, days⟩ := isDay.le
  have dash : ∀ rest, trimStart ('-' :: rest) = '-' :: rest := fun _ => rfl
  have readMonth : number? 2 (padded 2 month ++ '-' :: padded 2 day) =
      some (month, '-' :: padded 2 day) :=
    number?_padded (Nat.le_refl 2) (length_numeral_le 2 (by decide) (by omega)) (noDigit_dash _)
  have readDay : number? 2 (padded 2 day ++ []) = some (day, []) :=
    number?_padded (Nat.le_refl 2) (length_numeral_le 2 (by decide) (by omega))
      fun _ none => by cases none
  have trimDay := trimStart_padded 2 day []
  rw [List.append_nil] at readDay trimDay
  unfold parse? render
  simp only [List.append_assoc, List.cons_append, trimStart_yearText,
    year?_yearText year (noDigit_dash _), dash, afterDash?, trimStart_padded, readMonth, trimDay,
    readDay, Option.bind_eq_bind, Option.bind_some]
  simp only [trimStart, List.dropWhile_nil, List.isEmpty_nil, ↓reduceIte, ofNumbers?, isDay,
    ↓reduceDIte]

end DeckBuilder.Date
