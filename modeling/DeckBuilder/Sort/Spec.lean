import DeckBuilder.Json.Record

/-! # Sort specifications

An ordered list of sort keys, the primary one first. Disabled entries keep their place and take no
part in comparisons.
-/

namespace DeckBuilder

/-- What cards can be ordered by. -/
inductive SortKey where
  | name
  | manaValue
  | color
  | rarity
  | type
  | set
  | releasedAt
deriving DecidableEq, Repr

/-- A direction of sorting. -/
inductive SortDirection where
  | ascending
  | descending
deriving DecidableEq, Repr

/-- One key of a sort specification. -/
structure SortEntry where
  key : SortKey
  direction : SortDirection
  enabled : Bool
deriving DecidableEq, Repr

/-- The entries of a sort specification, the primary key first. -/
structure SortSpec where
  entries : List SortEntry
deriving DecidableEq, Repr

namespace SortKey

/-- All keys in their standard order. -/
def all : List SortKey :=
  [name, manaValue, color, rarity, type, set, releasedAt]

def label : SortKey → String
  | name => "NAME"
  | manaValue => "CMC"
  | color => "COLOR"
  | rarity => "RARITY"
  | type => "TYPE"
  | set => "SET"
  | releasedAt => "RELEASED_AT"

def ofLabel? : String → Option SortKey
  | "NAME" => some name
  | "CMC" => some manaValue
  | "COLOR" => some color
  | "RARITY" => some rarity
  | "TYPE" => some type
  | "SET" => some set
  | "RELEASED_AT" => some releasedAt
  | _ => none

theorem ofLabel?_label (key : SortKey) : ofLabel? key.label = some key := by
  cases key <;> rfl

def toJson (key : SortKey) : Json :=
  .string key.label

def ofJson? (json : Json) : Option SortKey :=
  json.toEnum? ofLabel?

end SortKey

namespace SortDirection

def reversed : SortDirection → SortDirection
  | ascending => descending
  | descending => ascending

theorem reversed_reversed (direction : SortDirection) :
    direction.reversed.reversed = direction := by
  cases direction <;> rfl

/-- An ordering seen in this direction. -/
def apply : SortDirection → Ordering → Ordering
  | ascending, ordering => ordering
  | descending, ordering => ordering.swap

def label : SortDirection → String
  | ascending => "ASC"
  | descending => "DESC"

def ofLabel? : String → Option SortDirection
  | "ASC" => some ascending
  | "DESC" => some descending
  | _ => none

theorem ofLabel?_label (direction : SortDirection) : ofLabel? direction.label = some direction := by
  cases direction <;> rfl

def toJson (direction : SortDirection) : Json :=
  .string direction.label

def ofJson? (json : Json) : Option SortDirection :=
  json.toEnum? ofLabel?

end SortDirection

namespace SortEntry

def fieldNames : List String :=
  ["sortBy", "sortDirection", "enabled"]

def toJson (entry : SortEntry) : Json :=
  .object [("sortBy", entry.key.toJson), ("sortDirection", entry.direction.toJson),
    ("enabled", .bool entry.enabled)]

def ofJson? (json : Json) : Option SortEntry := do
  let field ← json.record? fieldNames
  return {
    key := ← (field "sortBy").required SortKey.ofJson?
    direction := ← (field "sortDirection").required SortDirection.ofJson?
    enabled := ← (field "enabled").required Json.toBool?
  }

end SortEntry

namespace SortSpec

/-- Every key ascending, and only the mana value enabled. -/
def standard : SortSpec :=
  ⟨SortKey.all.map fun key => ⟨key, .ascending, key == .manaValue⟩⟩

/-- The entries that take part in comparisons. -/
def enabled (spec : SortSpec) : List SortEntry :=
  spec.entries.filter (·.enabled)

/-- Moves the entry at one index to another; an index outside the list moves nothing. -/
def moveEntry (spec : SortSpec) (start target : Nat) : SortSpec :=
  match spec.entries[start]? with
  | some entry =>
    if target < spec.entries.length then
      ⟨(spec.entries.eraseIdx start).insertIdx target entry⟩
    else spec
  | none => spec

/-- Changes the entries of one key. -/
def changeKey (spec : SortSpec) (key : SortKey) (change : SortEntry → SortEntry) : SortSpec :=
  ⟨spec.entries.map fun entry => if entry.key = key then change entry else entry⟩

/-- Enables or disables a key. -/
def setEnabled (spec : SortSpec) (key : SortKey) (enabled : Bool) : SortSpec :=
  spec.changeKey key fun entry => { entry with enabled }

/-- Reverses the direction of a key. -/
def toggleDirection (spec : SortSpec) (key : SortKey) : SortSpec :=
  spec.changeKey key fun entry => { entry with direction := entry.direction.reversed }

def toJson (spec : SortSpec) : Json :=
  .ofList SortEntry.toJson spec.entries

def ofJson? (json : Json) : Option SortSpec :=
  (json.toList? SortEntry.ofJson?).map .mk

end SortSpec

end DeckBuilder
