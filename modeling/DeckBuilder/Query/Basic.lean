import DeckBuilder.Card.Basic
import DeckBuilder.Text.Lowercase

/-! # Search clauses

A clause tests one thing about a card and may be negated. Texts in clauses are lower-case, and a
card's texts are lower-cased before they are searched.
-/

namespace DeckBuilder

/-- A comparison of mana values. -/
inductive Comparator where
  | eq
  | gt
  | ge
  | lt
  | le
deriving DecidableEq, Repr

/-- Whether the comparison holds from the left value to the right one. -/
def Comparator.holds : Comparator → UInt32 → UInt32 → Bool
  | eq, left, right => left == right
  | gt, left, right => right < left
  | ge, left, right => right ≤ left
  | lt, left, right => left < right
  | le, left, right => left ≤ right

/-- What a clause tests. -/
inductive Predicate where
  /-- A printing is in the set with this code, or in one whose name contains the text. -/
  | inSet (text : String)
  /-- The type line contains the text. -/
  | ofType (text : String)
  /-- The rules text of the card or of a face contains the text. -/
  | oracle (text : String)
  /-- The flavor text of a printing or of a face contains the text. -/
  | flavor (text : String)
  /-- A printing has the rarity. -/
  | rarity (rarity : Rarity)
  /-- The color identity has one of the symbols. -/
  | colors (colors : List Color)
  /-- The mana value compares with the number. -/
  | manaValue (comparator : Comparator) (value : UInt32)
  /-- Any text of the card contains the text. -/
  | anywhere (text : String)
deriving DecidableEq, Repr

structure Query where
  predicate : Predicate
  negated : Bool
deriving DecidableEq, Repr

/-- Whether a lower-case needle is part of a text in any case. -/
def mentions (needle text : String) : Bool :=
  occursIn needle (lowercase text)

namespace Card

/-- All texts that a free-text search looks through. -/
def searchedTexts (card : Card) : List String :=
  [card.name, card.typeLine] ++ card.oracleText.toList ++
    (card.printings.flatMap fun printing =>
      [printing.set, printing.setName] ++ printing.flavorText.toList) ++
    card.faces.flatMap fun face =>
      [face.name] ++ face.typeLine.toList ++ face.oracleText.toList ++ face.flavorText.toList

/-- Free-text search in names, type lines, set codes and names, rules texts and flavor texts. -/
def mentionsAnywhere (card : Card) (text : String) : Bool :=
  card.searchedTexts.any (mentions (lowercase text))

end Card

/-- Whether a card passes the test. -/
def Predicate.holds (predicate : Predicate) (card : Card) : Bool :=
  match predicate with
  | inSet text => card.printings.any fun printing =>
      sameIgnoringAsciiCase printing.set text || mentions text printing.setName
  | ofType text => mentions text card.typeLine
  | oracle text => card.oracleText.any (mentions text) ||
      card.faces.any fun face => face.oracleText.any (mentions text)
  | flavor text => (card.printings.any fun printing => printing.flavorText.any (mentions text)) ||
      card.faces.any fun face => face.flavorText.any (mentions text)
  | rarity wanted => card.printings.any fun printing => printing.rarity == wanted
  | colors listed => listed.any card.hasColor
  | manaValue comparator value => comparator.holds card.manaValue value
  | anywhere text => card.mentionsAnywhere text

/-- Whether a card matches the clause. -/
def Query.accepts (query : Query) (card : Card) : Bool :=
  query.predicate.holds card != query.negated

end DeckBuilder
