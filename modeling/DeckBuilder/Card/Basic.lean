import DeckBuilder.Calendar.Date
import DeckBuilder.Card.Color
import DeckBuilder.Card.Game
import DeckBuilder.Card.Layout
import DeckBuilder.Card.Rarity
import DeckBuilder.SortedMap.Basic
import DeckBuilder.Text.Pieces

/-! # Cards

A card is what a rules text is written for; its printings are the versions in which it appeared,
each with its own set, rarity, legalities and faces.
-/

namespace DeckBuilder

/-- A size or crop in which images are offered. -/
inductive ImageSize where
  | small
  | normal
  | large
  | png
  | artCrop
  | borderCrop
deriving DecidableEq, Repr

/-- The addresses of an image in all sizes. -/
structure ImageUris where
  small : Option String
  normal : Option String
  large : Option String
  png : Option String
  artCrop : Option String
  borderCrop : Option String
deriving DecidableEq, Repr

/-- The address of an image in one size. -/
def ImageUris.get? (uris : ImageUris) : ImageSize → Option String
  | .small => uris.small
  | .normal => uris.normal
  | .large => uris.large
  | .png => uris.png
  | .artCrop => uris.artCrop
  | .borderCrop => uris.borderCrop

/-- One face of a printing. -/
structure CardFace where
  name : String
  typeLine : Option String
  oracleText : Option String
  flavorText : Option String
  manaCost : Option String
  layout : Option Layout
  imageUris : Option ImageUris
deriving DecidableEq

/-- One version of a card. -/
structure Printing where
  id : String
  set : String
  setName : String
  setType : Option String
  rarity : Rarity
  releasedAt : Option Date
  legalities : SortedMap String String
  games : List Game
  faces : List CardFace
  imageUris : Option ImageUris
  flavorText : Option String
  isDefault : Bool
deriving DecidableEq

/-- A card together with all of its printings. -/
structure Card where
  id : String
  name : String
  oracleText : Option String
  manaValue : UInt32
  colorIdentity : List Color
  typeLine : String
  layout : Layout
  keywords : List String
  printings : List Printing
  tags : List String
deriving DecidableEq

namespace Card

/-- The printing flagged as default, or else the first one. -/
def defaultPrinting? (card : Card) : Option Printing :=
  (card.printings.find? (·.isDefault)).or card.printings.head?

/-- The printing with an ID. -/
def printing? (card : Card) (id : String) : Option Printing :=
  card.printings.find? (·.id == id)

/-- The part of a double-sided text before the first `//`, without blanks at its ends. -/
def frontSide (text : String) : String :=
  String.ofList (Text.trim ((Text.sides text.toList).headD []))

/-- The type line of the front face. -/
def frontTypeLine (card : Card) : String :=
  frontSide card.typeLine

/-- Legendary creatures and planeswalkers can lead a deck. -/
def canCommand (card : Card) : Bool :=
  let front := card.frontTypeLine
  occursIn "Legendary" front && (occursIn "Creature" front || occursIn "Planeswalker" front)

/-- A land on its only side. -/
def isLand (card : Card) : Bool :=
  occursIn "Land" card.typeLine && !occursIn "//" card.typeLine

def isBasicLand (card : Card) : Bool :=
  occursIn "Basic Land" card.typeLine

/-- Whether a symbol is part of the color identity. -/
def hasColor (card : Card) (color : Color) : Bool :=
  card.colorIdentity.contains color

/-- The faces of all printings, in order. -/
def faces (card : Card) : List CardFace :=
  card.printings.flatMap (·.faces)

/-- Whether the color identity fits into that of a commander; colorless always does. -/
def fitsIdentityOf (card commander : Card) : Bool :=
  card.colorIdentity.all fun color => color == .colorless || commander.hasColor color

/-- Whether the card or one of its faces has a layout. -/
def hasLayout (card : Card) (layout : Layout) : Bool :=
  card.layout == layout || card.faces.any fun face => face.layout == some layout

end Card

end DeckBuilder
