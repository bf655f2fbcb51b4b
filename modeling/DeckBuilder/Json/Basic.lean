import DeckBuilder.Text.Decimal

/-! # JSON values

The document type of all stored and exchanged data. Numbers keep the form in which they are
written, since `1` is a whole number and `1.0` is not; objects keep their fields in order, repeated
names included, so that a reader can tell whether a field was given twice.
-/

namespace DeckBuilder

namespace Json

/-- A number as written: sign, whole part, digits after the point, and exponent. -/
structure Number where
  negative : Bool
  whole : Nat
  fraction : List Nat
  exponent : Option Int
deriving DecidableEq, Repr

namespace Number

/-- The written form of a whole number. -/
def ofInt (value : Int) : Number :=
  ⟨value < 0, value.natAbs, [], none⟩

/-- The value of a number written without point and exponent. Minus zero is not a whole number. -/
def toInt? (number : Number) : Option Int :=
  if number.fraction.isEmpty && number.exponent.isNone then
    if number.negative then
      if number.whole = 0 then none else some (-(number.whole : Int))
    else some number.whole
  else none

theorem toInt?_ofInt (value : Int) : (ofInt value).toInt? = some value := by
  by_cases negative : value < 0
  · have nonzero : value.natAbs ≠ 0 := by omega
    simp only [toInt?, ofInt, List.isEmpty_nil, Option.isNone_none, Bool.and_self, if_true,
      decide_eq_true_eq, negative, nonzero, if_false, Option.some.injEq]
    omega
  · simp only [toInt?, ofInt, List.isEmpty_nil, Option.isNone_none, Bool.and_self, if_true,
      decide_eq_true_eq, negative, if_false, Option.some.injEq]
    omega

end Number

end Json

/-- A JSON document. A string literal whose escapes leave half of a surrogate pair denotes no text;
it, and an object with such a field name, is `garbled`: a document to every reader that skips it, a
value to none. -/
inductive Json where
  | null
  | bool (value : Bool)
  | number (value : Json.Number)
  | string (value : String)
  | array (items : List Json)
  | object (fields : List (String × Json))
  | garbled
deriving Repr, Inhabited

namespace Json

/-- The document of a whole number. -/
def int (value : Int) : Json :=
  number (.ofInt value)

/-- The document of a natural number. -/
def nat (value : Nat) : Json :=
  int value

/-- A value that may be absent, written as `null` when it is. -/
def ofOption {α : Type} (encode : α → Json) : Option α → Json
  | none => null
  | some value => encode value

/-- A list of values of one kind. -/
def ofList {α : Type} (encode : α → Json) (values : List α) : Json :=
  array (values.map encode)

end Json

end DeckBuilder
