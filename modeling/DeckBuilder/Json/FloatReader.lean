import DeckBuilder.Json.Basic

/-! # Reading floating point numbers

A number is read as a significand of 64 bits, and a power of ten that scales it in floating point
arithmetic. The digits before the point and those after it each stop counting where the significand
would grow too large. A number beyond the largest finite one is refused.
-/

namespace DeckBuilder.Json

/-- Appends digits to a significand as long as it fits into 64 bits, and returns the digits left
over as well. -/
def significand : Nat → List Nat → Nat × List Nat
  | value, [] => (value, [])
  | value, digit :: rest =>
    if value * 10 + digit < UInt64.size then significand (value * 10 + digit) rest
    else (value, digit :: rest)

/-- Scales a number by a power of ten, in steps of at most 308 places. -/
def scale (value : Float) (exponent : Int) : Nat → Option Float
  | 0 => none
  | bound + 1 =>
    let power := Float.ofScientific 1 false (min exponent.natAbs 308)
    if exponent.natAbs ≤ 308 then
      let scaled := if 0 ≤ exponent then value * power else value / power
      if scaled.isInf then none else some scaled
    else if value == 0 then some value
    else if 0 ≤ exponent then none
    else scale (value / power) (exponent + 308) bound

namespace Number

/-- The digits of a natural number. -/
def wholeDigits (n : Nat) : List Nat :=
  (Text.numeral n).filterMap Text.digitValue?

/-- The floating point number that a number denotes. -/
def toFloat? (number : Number) : Option Float :=
  let (value, dropped) := significand 0 (wholeDigits number.whole)
  let (value, unused) := significand value number.fraction
  let places := number.fraction.length - unused.length
  let exponent := (dropped.length : Int) - places + number.exponent.getD 0
  (scale (Float.ofNat value) exponent (exponent.natAbs + 1)).map fun size =>
    if number.negative then -size else size

end Number

def toFloat? : Json → Option Float
  | number value => value.toFloat?
  | _ => none

end DeckBuilder.Json
