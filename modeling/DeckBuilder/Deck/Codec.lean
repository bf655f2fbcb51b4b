import DeckBuilder.Deck.Basic
import DeckBuilder.Geometry.Basic
import DeckBuilder.Json.Record

/-! # Decks as documents

Writers and readers of decks for any kind of coordinates, given how a coordinate is written and
read. A position leaves its parent out when it has none.
-/

namespace DeckBuilder

variable {α : Type}

namespace DeckPart

def name : DeckPart → String
  | main => "MAIN"
  | sideboard => "SIDEBOARD"

def ofName? : String → Option DeckPart
  | "MAIN" => some main
  | "SIDEBOARD" => some sideboard
  | _ => none

def toJson (part : DeckPart) : Json :=
  .string part.name

def ofJson? (json : Json) : Option DeckPart :=
  json.toEnum? ofName?

end DeckPart

namespace CardRole

def name : CardRole → String
  | normal => "NORMAL"
  | commander => "COMMANDER"
  | companion => "COMPANION"

def ofName? : String → Option CardRole
  | "NORMAL" => some normal
  | "COMMANDER" => some commander
  | "COMPANION" => some companion
  | _ => none

def toJson (role : CardRole) : Json :=
  .string role.name

def ofJson? (json : Json) : Option CardRole :=
  json.toEnum? ofName?

end CardRole

namespace Point

def toJson (coordinate : α → Json) (point : Point α) : Json :=
  .object [("x", coordinate point.x), ("y", coordinate point.y)]

def ofJson? (coordinate? : Json → Option α) (json : Json) : Option (Point α) := do
  let field ← json.record? ["x", "y"]
  return {
    x := ← (field "x").required coordinate?
    y := ← (field "y").required coordinate?
  }

end Point

namespace Position

def toJson (coordinate : α → Json) (position : Position α) : Json :=
  .object ([("x", coordinate position.x), ("y", coordinate position.y)] ++
    position.parent.toList.map fun parent => ("parentID", .string parent))

def ofJson? (coordinate? : Json → Option α) (json : Json) : Option (Position α) := do
  let field ← json.record? ["x", "y", "parentID"]
  return {
    x := ← (field "x").required coordinate?
    y := ← (field "y").required coordinate?
    parent := ← (field "parentID").orNone Json.toText?
  }

end Position

namespace DeckCard

def fieldNames : List String :=
  ["cardID", "count", "mainOrSide", "deckCardType", "selectedVersionID", "position", "phantoms"]

def toJson (coordinate : α → Json) (card : DeckCard α) : Json :=
  .object [("cardID", .string card.cardId), ("count", .nat card.count.toNat),
    ("mainOrSide", card.part.toJson), ("deckCardType", card.role.toJson),
    ("selectedVersionID", .ofOption .string card.version),
    ("position", card.position.toJson coordinate),
    ("phantoms", .ofList (Position.toJson coordinate) card.phantoms)]

def ofJson? [Coordinate α] (coordinate? : Json → Option α) (json : Json) :
    Option (DeckCard α) := do
  let field ← json.record? fieldNames
  return {
    cardId := ← (field "cardID").required Json.toText?
    count := ← (field "count").required Json.toUInt32?
    part := ← (field "mainOrSide").orDefault .main DeckPart.ofJson?
    role := ← (field "deckCardType").orDefault .normal CardRole.ofJson?
    version := ← (field "selectedVersionID").orNone Json.toText?
    position := ← (field "position").orDefault (.free .zero) (Position.ofJson? coordinate?)
    phantoms := ← (field "phantoms").orDefault [] (Json.toList? (Position.ofJson? coordinate?))
  }

end DeckCard

namespace Zone

def fieldNames : List String :=
  ["ID", "name", "position", "width", "height", "cardChildren", "zoneChildren"]

def toJson (coordinate : α → Json) (zone : Zone α) : Json :=
  .object [("ID", .string zone.id), ("name", .string zone.name),
    ("position", zone.position.toJson coordinate), ("width", coordinate zone.width),
    ("height", coordinate zone.height), ("cardChildren", .ofList .string zone.cardChildren),
    ("zoneChildren", .ofList .string zone.zoneChildren)]

def ofJson? (coordinate? : Json → Option α) (json : Json) : Option (Zone α) := do
  let field ← json.record? fieldNames
  return {
    id := ← (field "ID").required Json.toText?
    name := ← (field "name").required Json.toText?
    position := ← (field "position").required (Point.ofJson? coordinate?)
    width := ← (field "width").required coordinate?
    height := ← (field "height").required coordinate?
    cardChildren := ← (field "cardChildren").orDefault [] (Json.toList? Json.toText?)
    zoneChildren := ← (field "zoneChildren").orDefault [] (Json.toList? Json.toText?)
  }

end Zone

namespace Deck

def fieldNames : List String :=
  ["ID", "name", "cards", "zones", "ignoredCards", "cardFrontImage"]

def toJson (coordinate : α → Json) (deck : Deck α) : Json :=
  .object [("ID", .string deck.id), ("name", .string deck.name),
    ("cards", .ofList (DeckCard.toJson coordinate) deck.cards),
    ("zones", .ofList (Zone.toJson coordinate) deck.zones),
    ("ignoredCards", .ofList .string deck.ignored),
    ("cardFrontImage", .ofOption .string deck.cover)]

def ofJson? [Coordinate α] (coordinate? : Json → Option α) (json : Json) : Option (Deck α) := do
  let field ← json.record? fieldNames
  return {
    id := ← (field "ID").required Json.toText?
    name := ← (field "name").required Json.toText?
    cards := ← (field "cards").orDefault [] (Json.toList? (DeckCard.ofJson? coordinate?))
    zones := ← (field "zones").orDefault [] (Json.toList? (Zone.ofJson? coordinate?))
    ignored := ← (field "ignoredCards").orDefault [] (Json.toList? Json.toText?)
    cover := ← (field "cardFrontImage").orNone Json.toText?
  }

end Deck

end DeckBuilder
