import DeckBuilder.Card.Basic
import DeckBuilder.Json.Record

/-! # Cards as documents

Each writer stands beside its reader. Readers fill in what a record leaves out.
-/

namespace DeckBuilder

namespace ImageUris

def fieldNames : List String :=
  ["small", "normal", "large", "png", "artCrop", "borderCrop"]

def toJson (uris : ImageUris) : Json :=
  .object [("small", .ofOption .string uris.small), ("normal", .ofOption .string uris.normal),
    ("large", .ofOption .string uris.large), ("png", .ofOption .string uris.png),
    ("artCrop", .ofOption .string uris.artCrop), ("borderCrop", .ofOption .string uris.borderCrop)]

def ofJson? (json : Json) : Option ImageUris := do
  let field ← json.record? fieldNames
  let text (name : String) := (field name).optional Json.toText?
  return {
    small := ← text "small"
    normal := ← text "normal"
    large := ← text "large"
    png := ← text "png"
    artCrop := ← text "artCrop"
    borderCrop := ← text "borderCrop"
  }

end ImageUris

namespace Layout

def toJson (layout : Layout) : Json :=
  .string layout.name

def ofJson? (json : Json) : Option Layout :=
  json.toEnum? fun name => some (ofName name)

theorem ofJson?_toJson (layout : Layout) : ofJson? layout.toJson = some layout :=
  congrArg some (ofName_name layout)

end Layout

namespace Color

def toJson (color : Color) : Json :=
  .string color.name

def ofJson? (json : Json) : Option Color :=
  json.toEnum? ofName?

theorem ofJson?_toJson (color : Color) : ofJson? color.toJson = some color :=
  ofName?_name color

end Color

namespace Rarity

def toJson (rarity : Rarity) : Json :=
  .string rarity.name

def ofJson? (json : Json) : Option Rarity :=
  json.toEnum? fun name => some (ofName name)

theorem ofJson?_toJson (rarity : Rarity) : ofJson? rarity.toJson = some rarity :=
  congrArg some (ofName_name rarity)

end Rarity

namespace Game

def toJson (game : Game) : Json :=
  .string game.name

def ofJson? (json : Json) : Option Game :=
  json.toEnum? fun name => some (ofName name)

theorem ofJson?_toJson (game : Game) : ofJson? game.toJson = some game :=
  congrArg some (ofName_name game)

end Game

namespace CardFace

def fieldNames : List String :=
  ["name", "typeLine", "oracleText", "flavorText", "manaCost", "layout", "imageUris"]

def toJson (face : CardFace) : Json :=
  .object [("name", .string face.name), ("typeLine", .ofOption .string face.typeLine),
    ("oracleText", .ofOption .string face.oracleText),
    ("flavorText", .ofOption .string face.flavorText),
    ("manaCost", .ofOption .string face.manaCost), ("layout", .ofOption Layout.toJson face.layout),
    ("imageUris", .ofOption ImageUris.toJson face.imageUris)]

def ofJson? (json : Json) : Option CardFace := do
  let field ← json.record? fieldNames
  return {
    name := ← (field "name").required Json.toText?
    typeLine := ← (field "typeLine").optional Json.toText?
    oracleText := ← (field "oracleText").optional Json.toText?
    flavorText := ← (field "flavorText").optional Json.toText?
    manaCost := ← (field "manaCost").optional Json.toText?
    layout := ← (field "layout").optional Layout.ofJson?
    imageUris := ← (field "imageUris").optional ImageUris.ofJson?
  }

end CardFace

namespace Printing

def fieldNames : List String :=
  ["ID", "set", "setName", "setType", "rarity", "releasedAt", "legalities", "games", "cardFaces",
    "imageUris", "flavorText", "isDefault"]

def toJson (printing : Printing) : Json :=
  .object [("ID", .string printing.id), ("set", .string printing.set),
    ("setName", .string printing.setName), ("setType", .ofOption .string printing.setType),
    ("rarity", printing.rarity.toJson), ("releasedAt", .ofOption .ofDate printing.releasedAt),
    ("legalities", .ofMap (fun format => format) .string printing.legalities),
    ("games", .ofList Game.toJson printing.games),
    ("cardFaces", .ofList CardFace.toJson printing.faces),
    ("imageUris", .ofOption ImageUris.toJson printing.imageUris),
    ("flavorText", .ofOption .string printing.flavorText), ("isDefault", .bool printing.isDefault)]

def ofJson? (json : Json) : Option Printing := do
  let field ← json.record? fieldNames
  return {
    id := ← (field "ID").required Json.toText?
    set := ← (field "set").required Json.toText?
    setName := ← (field "setName").orDefault "" Json.toText?
    setType := ← (field "setType").optional Json.toText?
    rarity := ← (field "rarity").required Rarity.ofJson?
    releasedAt := ← (field "releasedAt").optional Json.toDate?
    legalities := ← (field "legalities").orDefault ∅ (Json.toMap? some Json.toText?)
    games := ← (field "games").orDefault [] (Json.toList? Game.ofJson?)
    faces := ← (field "cardFaces").orDefault [] (Json.toList? CardFace.ofJson?)
    imageUris := ← (field "imageUris").optional ImageUris.ofJson?
    flavorText := ← (field "flavorText").optional Json.toText?
    isDefault := ← (field "isDefault").orDefault false Json.toBool?
  }

end Printing

namespace Card

def fieldNames : List String :=
  ["ID", "name", "oracleText", "CMC", "colorIdentity", "typeLine", "layout", "keywords", "versions",
    "tags"]

def toJson (card : Card) : Json :=
  .object [("ID", .string card.id), ("name", .string card.name),
    ("oracleText", .ofOption .string card.oracleText), ("CMC", .nat card.manaValue.toNat),
    ("colorIdentity", .ofList Color.toJson card.colorIdentity), ("typeLine", .string card.typeLine),
    ("layout", card.layout.toJson), ("keywords", .ofList .string card.keywords),
    ("versions", .ofList Printing.toJson card.printings), ("tags", .ofList .string card.tags)]

def ofJson? (json : Json) : Option Card := do
  let field ← json.record? fieldNames
  return {
    id := ← (field "ID").required Json.toText?
    name := ← (field "name").required Json.toText?
    oracleText := ← (field "oracleText").optional Json.toText?
    manaValue := ← (field "CMC").orDefault 0 Json.toUInt32?
    colorIdentity := ← (field "colorIdentity").orDefault [] (Json.toList? Color.ofJson?)
    typeLine := ← (field "typeLine").orDefault "" Json.toText?
    layout := ← (field "layout").orDefault .normal Layout.ofJson?
    keywords := ← (field "keywords").orDefault [] (Json.toList? Json.toText?)
    printings := ← (field "versions").orDefault [] (Json.toList? Printing.ofJson?)
    tags := ← (field "tags").orDefault [] (Json.toList? Json.toText?)
  }

end Card

end DeckBuilder
