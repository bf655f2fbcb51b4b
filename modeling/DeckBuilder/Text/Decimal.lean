/-! # Decimal numerals

Reading whole numbers from ASCII digits.
-/

namespace DeckBuilder.Text

/-- The value of an ASCII digit. -/
def digitValue? (c : Char) : Option Nat :=
  if '0'.toNat ≤ c.toNat ∧ c.toNat ≤ '9'.toNat then some (c.toNat - '0'.toNat) else none

/-- The number that digits denote after a number already read. -/
def readDigits : Nat → List Char → Option Nat
  | value, [] => some value
  | value, c :: rest => (digitValue? c).bind fun digit => readDigits (value * 10 + digit) rest

/-- The number that a non-empty text of ASCII digits denotes. -/
def natural? (text : List Char) : Option Nat :=
  if text.isEmpty then none else readDigits 0 text

/-- The 32-bit number that digits denote; a plus sign may stand before them. -/
def word? (text : List Char) : Option UInt32 :=
  let digits := match text with
    | '+' :: rest => rest
    | _ => text
  (natural? digits).bind fun value =>
    if value < UInt32.size then some (UInt32.ofNat value) else none

/-- The decimal numeral of a number, without leading zeros. -/
def numeral (n : Nat) : List Char :=
  Nat.toDigits 10 n

end DeckBuilder.Text

namespace DeckBuilder

/-- The decimal numeral of a natural number. -/
def decimal (n : Nat) : String :=
  String.ofList (Text.numeral n)

/-- The decimal numeral of a whole number, with a sign when it is negative. -/
def signedDecimal (n : Int) : String :=
  if n < 0 then "-" ++ decimal n.natAbs else decimal n.natAbs

end DeckBuilder
