import DeckBuilder.Card.Basic
import DeckBuilder.Sort.Spec

/-! # The order of cards

Every sort key gives a card an order code, and cards are compared by their codes, entry by entry.
Sorting is stable: cards that compare equal keep their order.
-/

namespace DeckBuilder

/-- The name that a card is sorted by: a name with the opening `A-` follows the name without it. -/
def sortName (name : String) : String :=
  match name.toList with
  | 'A' :: '-' :: base => String.ofList (base ++ ['2'])
  | _ => name

/-- The weight of a type word; words without one weigh nothing. -/
def typeWeight : String → Nat
  | "Artifact" => 1
  | "Basic" => 2
  | "Battle" => 3
  | "Creature" => 4
  | "Enchantment" => 5
  | "Instant" => 6
  | "Kindred" => 7
  | "Land" => 8
  | "Legendary" => 9
  | "Planeswalker" => 10
  | "Snow" => 11
  | "Sorcery" => 12
  | _ => 0

/-- The sum of the weights of the different words of a type line. -/
def typeValue (typeLine : String) : Nat :=
  ((Text.words typeLine.toList).map String.ofList).eraseDups.foldl
    (fun total word => total + typeWeight word) 0

/-- The code of an optional date, which comes before all dates when it is absent. -/
def dateCode (date : Option Date) : List Nat :=
  (date.map OrderKey.code).getD []

def Date.earlier (first second : Date) : Date :=
  if OrderKey.compare second first = .lt then second else first

def Date.later (first second : Date) : Date :=
  if OrderKey.compare first second = .lt then second else first

namespace Card

/-- The wheel letters of the color identity, in order. -/
def wheelLetters (card : Card) : List Nat :=
  (card.colorIdentity.map fun color => color.wheelLetter.toNat).mergeSort fun a b => a ≤ b

/-- The code of a card's colors: lands last, then by the size of the identity, then along the color
wheel, with basic lands before other ones. -/
def colorCode (card : Card) : List Nat :=
  [card.isLand.toNat, card.colorIdentity.length] ++ card.wheelLetters ++
    [(!card.isBasicLand).toNat]

/-- The earliest release of a printing for ascending order, the latest for descending order. -/
def releaseFor (card : Card) (direction : SortDirection) : Option Date :=
  let dates := card.printings.filterMap (·.releasedAt)
  match dates, direction with
  | [], _ => none
  | date :: rest, .ascending => some (rest.foldl Date.earlier date)
  | date :: rest, .descending => some (rest.foldl Date.later date)

/-- The order code of a card under a sort key. -/
def code (card : Card) (key : SortKey) (direction : SortDirection) : List Nat :=
  match key with
  | .name => OrderKey.code (sortName card.name)
  | .manaValue => [card.manaValue.toNat]
  | .color => card.colorCode
  | .rarity => [(card.defaultPrinting?.map fun printing => printing.rarity.rank).getD 0]
  | .type => [typeValue card.typeLine]
  | .set => dateCode (card.defaultPrinting?.bind (·.releasedAt))
  | .releasedAt => dateCode (card.releaseFor direction)

end Card

/-- The comparison of two cards by their colors. -/
def compareByColor (first second : Card) : Ordering :=
  OrderCode.compare first.colorCode second.colorCode

/-- The comparison of two cards under one entry. -/
def SortEntry.compare (entry : SortEntry) (first second : Card) : Ordering :=
  entry.direction.apply
    (OrderCode.compare (first.code entry.key entry.direction)
      (second.code entry.key entry.direction))

/-- The comparison of two cards under the enabled entries, the first difference deciding. -/
def SortSpec.compare (spec : SortSpec) (first second : Card) : Ordering :=
  spec.enabled.foldr (fun entry rest => (entry.compare first second).then rest) .eq

/-- Sorts cards, keeping the order of those that compare equal. -/
def sortCards (cards : List Card) (spec : SortSpec) : List Card :=
  cards.mergeSort fun first second => spec.compare first second != .gt

end DeckBuilder
