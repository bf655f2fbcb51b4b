import DeckBuilder.Card.Basic
import DeckBuilder.Text.Lowercase

/-! # Finding cards by name

Names are compared without regard to case and to the punctuation variants found in decklists. A card
is found by its full name, by the sides of a double name, by the names of its faces, and without an
opening `A-`. The first card that claims a name keeps it.
-/

namespace DeckBuilder

/-- Plain punctuation in place of its variants. -/
def foldPunctuation (c : Char) : Char :=
  if c = '\u2019' ∨ c.toNat = 0x60 then '\''
  else if c = '\u2212' then '-'
  else c

/-- The form in which names are compared. -/
def normalizeName (name : String) : String :=
  String.ofList (Text.lower (Text.trim (name.toList.map foldPunctuation)))

/-- The trimmed sides of a double name; none for a name without `//`. -/
def nameSides (name : String) : List String :=
  match Text.sides name.toList with
  | [_] => []
  | sides => sides.map fun side => String.ofList (Text.trim side)

/-- What follows an opening of a name, if it has the opening. -/
def afterOpening? (opening name : String) : Option String :=
  (Text.afterOpening? opening.toList name.toList).map String.ofList

namespace Card

/-- The names that a card claims, in order of preference. -/
def claimedNames (card : Card) : List String :=
  card.name :: nameSides card.name ++ (afterOpening? "A-" card.name).toList ++
    card.faces.flatMap fun face => face.name :: nameSides face.name

end Card

/-- Claims of names by cards, the first claims first. -/
structure CardLookup where
  claims : List (String × Card)

namespace CardLookup

/-- The claims of some cards. -/
def ofCards (cards : List Card) : CardLookup :=
  ⟨cards.flatMap fun card => card.claimedNames.map fun name => (normalizeName name, card)⟩

/-- The card that claims a name in the form in which names are compared. -/
def holder? (lookup : CardLookup) (name : String) : Option Card :=
  (lookup.claims.find? (·.1 == name)).map (·.2)

/-- The names under which a card is looked for, in order. -/
def candidates (name : String) : List String :=
  let normalized := normalizeName name
  normalized :: (afterOpening? "a-" normalized).toList ++
    ((nameSides normalized).filter fun side => !side.isEmpty).take 2

/-- The card that a name means. -/
def find? (lookup : CardLookup) (name : String) : Option Card :=
  (candidates name).findSome? lookup.holder?

end CardLookup

end DeckBuilder
