import DeckBuilder.Filter.Spec
import DeckBuilder.Text.Blank

/-! # The filter of a catalogue

The specification that offers every type, subtype, set, legality, layout and tag of some cards,
without any preference. The first printing of a set decides how the set is displayed.
-/

namespace DeckBuilder

namespace FilterSpec

/-- Makes a key available without preference, unless it is. -/
def offer (spec : FilterSpec) : FilterKey → FilterSpec
  | .color color => { spec with colors := ToggleMap.offer spec.colors color }
  | .multiColor => spec
  | .rarity rarity => { spec with rarities := ToggleMap.offer spec.rarities rarity }
  | .manaValue bucket => { spec with manaValues := ToggleMap.offer spec.manaValues bucket }
  | .cardType cardType => { spec with cardTypes := ToggleMap.offer spec.cardTypes cardType }
  | .subtype cardType subtype =>
    { spec with
      subtypes := spec.subtypes.update cardType ∅ fun group => ToggleMap.offer group subtype }
  | .set code => { spec with sets := spec.sets.insertIfNew code .bare }
  | .legality format status =>
    { spec with
      legalities := spec.legalities.update format ∅ fun statuses =>
        ToggleMap.offer statuses (lowercase status) }
  | .layout layout => { spec with layouts := ToggleMap.offer spec.layouts layout }
  | .game game => { spec with games := ToggleMap.offer spec.games game }
  | .tag tag => { spec with tags := ToggleMap.offer spec.tags tag }

/-- Makes the set of a printing available, unless it is. -/
def offerSet (spec : FilterSpec) (printing : Printing) : FilterSpec :=
  { spec with
    sets := spec.sets.insertIfNew printing.set
      ⟨printing.setName, .unset, printing.releasedAt, printing.setType, printing.games⟩ }

end FilterSpec

namespace Card

/-- The type words and the subtypes of one side of a type line, which a long dash separates. -/
def typeWords (side : List Char) : List String × List String :=
  let types := side.takeWhile (· ≠ '—')
  let subtypes := (side.dropWhile (· ≠ '—')).drop 1
  ((Text.words types).map String.ofList, (Text.words subtypes).map String.ofList)

/-- The keys of one side of a type line. Subtypes belong to the last type word. -/
def sideKeys (side : List Char) : List FilterKey :=
  let (types, subtypes) := typeWords side
  types.map .cardType ++
    match types.getLast? with
    | some cardType => subtypes.map (.subtype cardType)
    | none => []

/-- The keys of a printing, apart from its set. -/
def printingKeys (printing : Printing) : List FilterKey :=
  (printing.legalities.entries.map fun entry => .legality entry.1 entry.2) ++
    printing.faces.filterMap fun face => face.layout.map .layout

/-- The keys that a card brings into a filter, apart from its sets. -/
def filterKeys (card : Card) : List FilterKey :=
  (Text.sides card.typeLine.toList).flatMap sideKeys ++ [.layout card.layout] ++
    card.tags.map .tag ++ card.printings.flatMap printingKeys

end Card

namespace FilterSpec

/-- Makes everything about a card available. -/
def offerCard (spec : FilterSpec) (card : Card) : FilterSpec :=
  card.printings.foldl offerSet (card.filterKeys.foldl offer spec)

/-- The specification that offers everything about the given cards. -/
def ofCards (cards : List Card) : FilterSpec :=
  cards.foldl offerCard standard

end FilterSpec

end DeckBuilder
