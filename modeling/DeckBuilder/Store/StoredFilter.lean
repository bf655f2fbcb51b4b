import DeckBuilder.Filter.Codec
import DeckBuilder.Json.Parser
import DeckBuilder.Json.Printer
import DeckBuilder.Sort.Spec

/-! # Stored filters

A filter session as it is kept in a file: the filter, the sort specification, the page, and the
schema hash of the filter.
-/

namespace DeckBuilder

/-- A filter session. -/
structure StoredFilter where
  filter : FilterSpec
  sort : SortSpec
  page : UInt64
  hash : Int32
deriving DecidableEq

namespace StoredFilter

/-- The session of a filter, under its own schema. -/
def ofSession (filter : FilterSpec) (sort : SortSpec) (page : UInt64) : StoredFilter :=
  ⟨filter, sort, page, filter.schemaHash⟩

def fieldNames : List String :=
  ["filter", "sort", "page", "hash"]

def toJson (stored : StoredFilter) : Json :=
  .object [("filter", stored.filter.toJson), ("sort", stored.sort.toJson),
    ("page", .nat stored.page.toNat), ("hash", .int stored.hash.toInt)]

def ofJson? (json : Json) : Option StoredFilter := do
  let field ← json.record? fieldNames
  return {
    filter := ← (field "filter").required FilterSpec.ofJson?
    sort := ← (field "sort").required SortSpec.ofJson?
    page := ← (field "page").required Json.toUInt64?
    hash := ← (field "hash").required Json.toInt32?
  }

def text (stored : StoredFilter) : String :=
  stored.toJson.compact

def ofText? (text : String) : Option StoredFilter :=
  (Json.parse? text).bind ofJson?

end StoredFilter

end DeckBuilder
