import DeckBuilder.Board.Node
import DeckBuilder.Deck.Codec

/-! # Board nodes as documents

What a node stands for is told by the `type` of its data, and the other fields of the data depend
on it.
-/

namespace DeckBuilder

variable {α : Type}

namespace NodeData

def toJson (coordinate : α → Json) : NodeData α → Json
  | .card cardId part role version =>
    .object [("type", .string "cardNode"), ("cardId", .string cardId),
      ("mainOrSide", part.toJson), ("deckCardType", role.toJson),
      ("selectedVersionId", .ofOption .string version)]
  | .phantom cardNode index =>
    .object [("type", .string "phantomNode"), ("phantomOf", .string cardNode),
      ("index", .nat index)]
  | .group label width height =>
    .object [("type", .string "groupNode"), ("label", .string label),
      ("width", coordinate width), ("height", coordinate height)]

/-- Reads a case of an enumeration. In node data its field, too, may hold an empty object. -/
def caseOfJson? {β : Type} (decode : Json → Option β) : Json → Option β
  | .object [(name, .object [])] => decode (.string name)
  | json => decode json

/-- Reads the data of a card node. -/
def cardOfJson? (json : Json) : Option (NodeData α) := do
  let field ← json.record? ["cardId", "mainOrSide", "deckCardType", "selectedVersionId"]
  let cardId ← (field "cardId").required Json.toText?
  let part ← (field "mainOrSide").required (caseOfJson? DeckPart.ofJson?)
  let role ← (field "deckCardType").required (caseOfJson? CardRole.ofJson?)
  let version ← (field "selectedVersionId").optional Json.toText?
  return .card cardId part role version

/-- Reads the data of a phantom node. -/
def phantomOfJson? (json : Json) : Option (NodeData α) := do
  let field ← json.record? ["phantomOf", "index"]
  let cardNode ← (field "phantomOf").required Json.toText?
  let index ← (field "index").required Json.toUInt64?
  return .phantom cardNode index.toNat

/-- Reads the data of a group node. -/
def groupOfJson? (coordinate? : Json → Option α) (json : Json) : Option (NodeData α) := do
  let field ← json.record? ["label", "width", "height"]
  let label ← (field "label").required Json.toText?
  let width ← (field "width").required coordinate?
  let height ← (field "height").required coordinate?
  return .group label width height

/-- Splits data into its kind and its other fields. -/
def tagged? : Json → Option (String × Json)
  | .object fields =>
    match fields.filter (·.1 == "type") with
    | [(_, .string kind)] => some (kind, .object (fields.filter (·.1 != "type")))
    | _ => none
  | .array (.string kind :: items) => some (kind, .array items)
  | _ => none

def ofJson? (coordinate? : Json → Option α) (json : Json) : Option (NodeData α) := do
  match ← tagged? json with
  | ("cardNode", rest) => cardOfJson? rest
  | ("phantomNode", rest) => phantomOfJson? rest
  | ("groupNode", rest) => groupOfJson? coordinate? rest
  | _ => none

end NodeData

namespace Node

def fieldNames : List String :=
  ["id", "position", "parentId", "data"]

def toJson (coordinate : α → Json) (node : Node α) : Json :=
  .object [("id", .string node.id), ("position", node.position.toJson coordinate),
    ("parentId", .ofOption .string node.parent), ("data", node.data.toJson coordinate)]

def ofJson? (coordinate? : Json → Option α) (json : Json) : Option (Node α) := do
  let field ← json.record? fieldNames
  return {
    id := ← (field "id").required Json.toText?
    position := ← (field "position").required (Point.ofJson? coordinate?)
    parent := ← (field "parentId").optional Json.toText?
    data := ← (field "data").required (NodeData.ofJson? coordinate?)
  }

end Node

end DeckBuilder
