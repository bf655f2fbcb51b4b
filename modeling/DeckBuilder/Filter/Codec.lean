import DeckBuilder.Card.Codec
import DeckBuilder.Filter.Spec
import DeckBuilder.Json.Printer

/-! # Filters as documents, and the schema hash

Every field of a stored filter must be given. Two filters that offer the same keys and the same set
data have the same schema, whatever their toggles: the schema hash is taken from the text of the
cleared filter. It is the polynomial hash over UTF-16 code units, in wrapping 32-bit arithmetic.
-/

namespace DeckBuilder

/-! ## The rolling hash -/

namespace Text

/-- The UTF-16 code units of a character: two surrogates beyond the basic plane. -/
def codeUnits (c : Char) : List UInt16 :=
  let n := c.toNat
  if n < 0x10000 then [UInt16.ofNat n]
  else
    [UInt16.ofNat (0xD800 + (n - 0x10000) / 0x400), UInt16.ofNat (0xDC00 + (n - 0x10000) % 0x400)]

/-- One step of the rolling hash: the hash times 31, plus the next unit. -/
def hashStep (hash : Int32) (unit : UInt16) : Int32 :=
  (hash <<< 5) - hash + Int32.ofNat unit.toNat

end Text

/-- The polynomial hash of a text: each code unit is added to 31 times the hash of what stands
before it. -/
def rollingHash (text : String) : Int32 :=
  text.toList.foldl (fun hash c => (Text.codeUnits c).foldl Text.hashStep hash) 0

/-! ## Documents -/

namespace Toggle

def toJson (toggle : Toggle) : Json :=
  .string toggle.name

def ofJson? (json : Json) : Option Toggle :=
  json.toEnum? ofName?

end Toggle

namespace SetFilter

def fieldNames : List String :=
  ["setName", "value", "releasedAt", "setType", "games"]

def toJson (filter : SetFilter) : Json :=
  .object [("setName", .string filter.setName), ("value", filter.value.toJson),
    ("releasedAt", .ofOption .ofDate filter.releasedAt),
    ("setType", .ofOption .string filter.setType), ("games", .ofList Game.toJson filter.games)]

def ofJson? (json : Json) : Option SetFilter := do
  let field ← json.record? fieldNames
  return {
    setName := ← (field "setName").required Json.toText?
    value := ← (field "value").required Toggle.ofJson?
    releasedAt := ← (field "releasedAt").optional Json.toDate?
    setType := ← (field "setType").optional Json.toText?
    games := ← (field "games").orDefault [] (Json.toList? Game.ofJson?)
  }

end SetFilter

namespace ToggleMap

variable {κ : Type} [OrderKey κ]

def toJson (name : κ → String) (toggles : ToggleMap κ) : Json :=
  .ofMap name Toggle.toJson toggles

def ofJson? (key? : String → Option κ) (json : Json) : Option (ToggleMap κ) :=
  json.toMap? key? Toggle.ofJson?

/-- Writes toggles by text. -/
def textToJson (toggles : ToggleMap String) : Json :=
  toJson (fun key => key) toggles

/-- Reads toggles by text. -/
def textOfJson? (json : Json) : Option (ToggleMap String) :=
  ofJson? some json

end ToggleMap

namespace FilterSpec

def fieldNames : List String :=
  ["searchString", "color", "multiColor", "rarity", "manaCosts", "cardTypes", "subtypes", "sets",
    "legalities", "layouts", "games", "tags", "hideIgnored", "hideUnreleased"]

def toJson (spec : FilterSpec) : Json :=
  .object [("searchString", .string spec.search),
    ("color", ToggleMap.toJson Color.name spec.colors),
    ("multiColor", spec.multiColor.toJson),
    ("rarity", ToggleMap.toJson Rarity.name spec.rarities),
    ("manaCosts", ToggleMap.toJson ManaBucket.name spec.manaValues),
    ("cardTypes", ToggleMap.textToJson spec.cardTypes),
    ("subtypes", .ofMap (fun key => key) ToggleMap.textToJson spec.subtypes),
    ("sets", .ofMap (fun key => key) SetFilter.toJson spec.sets),
    ("legalities", .ofMap (fun key => key) ToggleMap.textToJson spec.legalities),
    ("layouts", ToggleMap.toJson Layout.name spec.layouts),
    ("games", ToggleMap.toJson Game.name spec.games),
    ("tags", ToggleMap.textToJson spec.tags),
    ("hideIgnored", .bool spec.hideIgnored),
    ("hideUnreleased", .bool spec.hideUnreleased)]

def ofJson? (json : Json) : Option FilterSpec := do
  let field ← json.record? fieldNames
  return {
    search := ← (field "searchString").required Json.toText?
    colors := ← (field "color").required (ToggleMap.ofJson? Color.ofName?)
    multiColor := ← (field "multiColor").required Toggle.ofJson?
    rarities := ← (field "rarity").required
      (ToggleMap.ofJson? fun name => some (Rarity.ofName name))
    manaValues := ← (field "manaCosts").required (ToggleMap.ofJson? ManaBucket.ofName?)
    cardTypes := ← (field "cardTypes").required ToggleMap.textOfJson?
    subtypes := ← (field "subtypes").required (Json.toMap? some ToggleMap.textOfJson?)
    sets := ← (field "sets").required (Json.toMap? some SetFilter.ofJson?)
    legalities := ← (field "legalities").required (Json.toMap? some ToggleMap.textOfJson?)
    layouts := ← (field "layouts").required
      (ToggleMap.ofJson? fun name => some (Layout.ofName name))
    games := ← (field "games").required (ToggleMap.ofJson? fun name => some (Game.ofName name))
    tags := ← (field "tags").required ToggleMap.textOfJson?
    hideIgnored := ← (field "hideIgnored").required Json.toBool?
    hideUnreleased := ← (field "hideUnreleased").required Json.toBool?
  }

/-- The compact text of a filter. -/
def text (spec : FilterSpec) : String :=
  spec.toJson.compact

/-- The hash of what a filter offers, whatever its toggles. -/
def schemaHash (spec : FilterSpec) : Int32 :=
  rollingHash spec.clear.text

end FilterSpec

end DeckBuilder
