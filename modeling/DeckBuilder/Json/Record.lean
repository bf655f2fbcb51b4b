import DeckBuilder.Json.Basic
import DeckBuilder.SortedMap.Basic
import DeckBuilder.Calendar.Date

/-! # Reading values from documents

Readers of plain values, lists, maps and records. A record is an object with named fields, of which
unknown ones are ignored and known ones may be given once, or else the list of its fields in their
order. A reader answers `none` for a document that does not denote a value of its type.
-/

namespace DeckBuilder.Json

def toText? : Json → Option String
  | string text => some text
  | _ => none

def toBool? : Json → Option Bool
  | bool value => some value
  | _ => none

def toInt? : Json → Option Int
  | number value => value.toInt?
  | _ => none

def toNatBelow? (bound : Nat) (json : Json) : Option Nat :=
  json.toInt?.bind fun value => if 0 ≤ value ∧ value < bound then some value.toNat else none

def toUInt32? (json : Json) : Option UInt32 :=
  (json.toNatBelow? UInt32.size).map UInt32.ofNat

def toUInt64? (json : Json) : Option UInt64 :=
  (json.toNatBelow? UInt64.size).map UInt64.ofNat

def toInt32? (json : Json) : Option Int32 :=
  json.toInt?.bind fun value =>
    if -2147483648 ≤ value ∧ value ≤ 2147483647 then some (Int32.ofInt value) else none

def toDate? (json : Json) : Option Date :=
  json.toText?.bind fun text => Date.parse? text.toList

/-- Reads the name of a case of an enumeration, which may also be written as an object whose only
field has that name and no value. -/
def toCase? : Json → Option String
  | string name => some name
  | object [(name, null)] => some name
  | _ => none

def toEnum? {α : Type} (ofName? : String → Option α) (json : Json) : Option α :=
  json.toCase?.bind ofName?

def toList? {α : Type} (decode : Json → Option α) : Json → Option (List α)
  | array items => items.mapM decode
  | _ => none

def toOption? {α : Type} (decode : Json → Option α) : Json → Option (Option α)
  | null => some none
  | json => (decode json).map some

/-- Reads a map; of equal keys the last one counts. -/
def toMap? {κ ν : Type} [OrderKey κ] (key? : String → Option κ) (decode : Json → Option ν) :
    Json → Option (SortedMap κ ν)
  | object fields => do
    let entries ← fields.mapM fun field => do
      let key ← key? field.1
      let value ← decode field.2
      return (key, value)
    return SortedMap.ofList entries
  | _ => none

/-- Writes a map as an object, in key order. -/
def ofMap {κ ν : Type} [OrderKey κ] (name : κ → String) (encode : ν → Json)
    (map : SortedMap κ ν) : Json :=
  object (map.entries.map fun entry => (name entry.1, encode entry.2))

/-- Writes a calendar date. -/
def ofDate (date : Date) : Json :=
  string (String.ofList date.render)

/-- What a record holds for one of its fields. -/
inductive Field where
  /-- The field has this value. -/
  | given (value : Json)
  /-- The record names its fields, and not this one. -/
  | unnamed
  /-- The record lists its fields and ends before this one. -/
  | unlisted

/-- The fields of a record with the given field names, by name. -/
def record? (names : List String) : Json → Option (String → Field)
  | object fields =>
    if names.all fun name => (fields.countP fun field => field.1 == name) ≤ 1 then
      some fun name =>
        match fields.find? fun field => field.1 == name with
        | some field => .given field.2
        | none => .unnamed
    else none
  | array items =>
    if items.length ≤ names.length then
      some fun name =>
        match items[names.idxOf name]? with
        | some value => .given value
        | none => .unlisted
    else none
  | _ => none

namespace Field

variable {α : Type}

/-- A field that must be given. -/
def required (decode : Json → Option α) : Field → Option α
  | given value => decode value
  | _ => none

/-- A field that may be left out of a record with named fields, or be `null`. -/
def optional (decode : Json → Option α) : Field → Option (Option α)
  | given value => value.toOption? decode
  | unnamed => some none
  | unlisted => none

/-- A field that may be left out, or be `null`. -/
def orNone (decode : Json → Option α) : Field → Option (Option α)
  | given value => value.toOption? decode
  | _ => some none

/-- A field with a value of its own when it is left out. -/
def orDefault (fallback : α) (decode : Json → Option α) : Field → Option α
  | given value => decode value
  | _ => some fallback

end Field

end DeckBuilder.Json
