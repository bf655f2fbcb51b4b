import DeckBuilder.OrderCode
import DeckBuilder.Text.Blank
import DeckBuilder.Text.Decimal

/-! # Calendar dates

Days of the proleptic Gregorian calendar, written as year, month and day with dashes. Years of four
digits carry no sign, all others do.
-/

namespace DeckBuilder

namespace Date

/-- Every fourth year is a leap year, a century only if it divides by 400. -/
def isLeap (year : Int) : Bool :=
  year % 4 == 0 && (year % 100 != 0 || year % 400 == 0)

/-- The number of days of a month, zero for a month that does not exist. -/
def daysInMonth (year : Int) : Nat → Nat
  | 2 => if isLeap year then 29 else 28
  | 4 | 6 | 9 | 11 => 30
  | 1 | 3 | 5 | 7 | 8 | 10 | 12 => 31
  | _ => 0

def firstYear : Int := -262143

def lastYear : Int := 262142

/-- The days that exist. -/
def IsDay (year : Int) (month day : Nat) : Prop :=
  firstYear ≤ year ∧ year ≤ lastYear ∧ 1 ≤ day ∧ day ≤ daysInMonth year month

instance (year : Int) (month day : Nat) : Decidable (IsDay year month day) :=
  inferInstanceAs (Decidable (_ ∧ _))

end Date

/-- A day of the calendar. -/
structure Date where
  year : Int
  month : Nat
  day : Nat
  isDay : Date.IsDay year month day
deriving DecidableEq

namespace Date

/-- The day with these numbers, if there is one. -/
def ofNumbers? (year : Int) (month day : Nat) : Option Date :=
  if isDay : IsDay year month day then some ⟨year, month, day, isDay⟩ else none

/-- Earlier days have earlier codes. -/
instance : OrderKey Date where
  code date := [(date.year - firstYear).toNat, date.month, date.day]
  code_injective := by
    intro first second same
    obtain ⟨firstYear', _, _, firstIs⟩ := first
    obtain ⟨secondYear, _, _, secondIs⟩ := second
    obtain ⟨firstLow, _⟩ := firstIs
    obtain ⟨secondLow, _⟩ := secondIs
    simp only [List.cons.injEq, and_true] at same
    obtain ⟨years, months, days⟩ := same
    have sameYear : firstYear' = secondYear := by omega
    subst sameYear months days
    rfl

/-- Today or earlier. -/
def notAfter (date today : Date) : Bool :=
  OrderKey.compare date today != .gt

/-- A numeral with leading zeros up to a width. -/
def padded (width n : Nat) : List Char :=
  let digits := Text.numeral n
  List.replicate (width - digits.length) '0' ++ digits

/-- The year as written: four digits, or a sign and at least four digits. -/
def yearText (year : Int) : List Char :=
  if 0 ≤ year ∧ year ≤ 9999 then padded 4 year.toNat
  else (if year < 0 then '-' else '+') :: padded 4 year.natAbs

/-- The day as year, month and day with dashes between them. -/
def render (date : Date) : List Char :=
  yearText date.year ++ '-' :: padded 2 date.month ++ '-' :: padded 2 date.day

/-- The number of up to `width` leading digits, at least one, and what follows them. -/
def number? (width : Nat) (text : List Char) : Option (Nat × List Char) :=
  let digits := (text.take width).takeWhile fun c => (Text.digitValue? c).isSome
  (Text.natural? digits).map fun value => (value, text.drop digits.length)

/-- The year, which has up to four digits unless it carries a sign. -/
def year? : List Char → Option (Int × List Char)
  | '-' :: rest => (number? rest.length rest).map fun (value, rest) => (-value, rest)
  | '+' :: rest => (number? rest.length rest).map fun (value, rest) => (value, rest)
  | text => (number? 4 text).map fun (value, rest) => (value, rest)

/-- What follows a dash. -/
def afterDash? : List Char → Option (List Char)
  | '-' :: rest => some rest
  | _ => none

/-- Reads a date. Blanks may stand around each number, and leading zeros may be missing. -/
def parse? (text : List Char) : Option Date := do
  let (year, rest) ← year? (Text.trimStart text)
  let rest ← afterDash? (Text.trimStart rest)
  let (month, rest) ← number? 2 (Text.trimStart rest)
  let rest ← afterDash? (Text.trimStart rest)
  let (day, rest) ← number? 2 (Text.trimStart rest)
  if (Text.trimStart rest).isEmpty then ofNumbers? year month day else none

end Date

end DeckBuilder
