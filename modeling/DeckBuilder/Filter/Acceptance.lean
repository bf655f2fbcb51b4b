import DeckBuilder.Filter.Choices
import DeckBuilder.Filter.Spec
import DeckBuilder.Query.Parser

/-! # Filtering cards

A card is kept when it passes every stage of the filter. The stages are independent of one another:
each looks at one dimension of the specification.
-/

namespace DeckBuilder

/-- What shapes filtering without being part of the filter. -/
structure FilterContext where
  /-- Only cards that can lead a deck are wanted. -/
  selectingCommander : Bool
  /-- The commander whose color identity cards have to fit. -/
  commander : Option Card
  /-- The IDs of the ignored cards. -/
  ignored : List String
  /-- The day on which cards count as released. -/
  today : Date
deriving DecidableEq

namespace Card

/-- The color identity passes the color choices. When more than one color is asked for, several
required colors must all be there; otherwise one of them is enough. -/
def passesColors (card : Card) (choices : Choices Color) (multiColor : Toggle) : Bool :=
  let size := match multiColor with
    | .require => 1 < card.colorIdentity.length
    | .exclude => card.colorIdentity.length == 1
    | .unset => true
  let required :=
    if choices.required.isEmpty then true
    else if choices.excluded.isEmpty && multiColor.isPositive && 1 < choices.required.length then
      choices.required.all card.hasColor
    else choices.required.any card.hasColor
  size && required && !choices.excluded.any card.hasColor

/-- The lower-case statuses that the printings have in a format, written in any case. -/
def statusesIn (card : Card) (format : String) : List String :=
  card.printings.flatMap fun printing =>
    (printing.legalities.entries.filter fun entry => sameIgnoringAsciiCase entry.1 format).map
      fun entry => lowercase entry.2

/-- A printing appeared by the given day. -/
def isReleased (card : Card) (today : Date) : Bool :=
  card.printings.any fun printing => printing.releasedAt.any fun date => date.notAfter today

end Card

namespace FilterSpec

/-- Toggles by text, with their keys in lower case. -/
def lowered (toggles : ToggleMap String) : List (String × Toggle) :=
  toggles.entries.map fun entry => (lowercase entry.1, entry.2)

/-- The choices of sets. -/
def setChoices (spec : FilterSpec) : Choices String :=
  .ofToggles (spec.sets.entries.map fun entry => (entry.1, entry.2.value))

/-- The choices of games. -/
def gameChoices (spec : FilterSpec) : Choices Game :=
  .ofToggles spec.games.entries

/-- Whether a commander is being selected and the card cannot be one, or a commander has been and
the card does not fit its identity. -/
def passesCommander (context : FilterContext) (card : Card) : Bool :=
  if context.selectingCommander then card.canCommand
  else context.commander.all card.fitsIdentityOf

/-- The card is not an ignored one that the filter hides. -/
def passesIgnored (spec : FilterSpec) (context : FilterContext) (card : Card) : Bool :=
  !(spec.hideIgnored && context.ignored.contains card.id)

/-- The card matches every clause of the search text. -/
def passesSearch (spec : FilterSpec) (card : Card) : Bool :=
  (Query.parseAll spec.search.toList).all fun query => query.accepts card

/-- The color identity passes. -/
def passesColors (spec : FilterSpec) (card : Card) : Bool :=
  card.passesColors (.ofToggles spec.colors.entries) spec.multiColor

/-- The rarities of the printings pass. -/
def passesRarities (spec : FilterSpec) (card : Card) : Bool :=
  (Choices.ofToggles spec.rarities.entries).allowedBy fun rarity =>
    card.printings.any fun printing => printing.rarity == rarity

/-- The mana value passes. -/
def passesManaValues (spec : FilterSpec) (card : Card) : Bool :=
  (Choices.ofToggles spec.manaValues.entries).allowedBy fun bucket => bucket.contains card.manaValue

/-- The sets of the printings pass. -/
def passesSets (spec : FilterSpec) (card : Card) : Bool :=
  spec.setChoices.allowedBy fun code =>
    card.printings.any fun printing => sameIgnoringAsciiCase printing.set code

/-- The type line passes. -/
def passesCardTypes (spec : FilterSpec) (card : Card) : Bool :=
  (Choices.ofToggles (lowered spec.cardTypes)).allowedBy fun cardType =>
    mentions cardType card.typeLine

/-- The type line passes for every group of subtypes: a subtype counts only together with the type
it belongs to. -/
def passesSubtypes (spec : FilterSpec) (card : Card) : Bool :=
  spec.subtypes.entries.all fun group =>
    (Choices.ofToggles (lowered group.2)).demandedOf fun subtype =>
      mentions (lowercase group.1) card.typeLine && mentions subtype card.typeLine

/-- The legalities of the printings pass in every format. -/
def passesLegalities (spec : FilterSpec) (card : Card) : Bool :=
  spec.legalities.entries.all fun format =>
    (Choices.ofToggles (lowered format.2)).allowedBy fun status =>
      (card.statusesIn format.1).contains status

/-- The layouts of the card and its faces pass. -/
def passesLayouts (spec : FilterSpec) (card : Card) : Bool :=
  (Choices.ofToggles spec.layouts.entries).allowedBy card.hasLayout

/-- The games of the printings pass. -/
def passesGames (spec : FilterSpec) (card : Card) : Bool :=
  spec.gameChoices.allowedBy fun game =>
    card.printings.any fun printing => printing.games.contains game

/-- The tags pass. -/
def passesTags (spec : FilterSpec) (card : Card) : Bool :=
  (Choices.ofToggles spec.tags.entries).demandedOf fun tag => card.tags.contains tag

/-- The card is released, if the filter hides those that are not. -/
def passesRelease (spec : FilterSpec) (context : FilterContext) (card : Card) : Bool :=
  !spec.hideUnreleased || card.isReleased context.today

/-- Whether the filter keeps a card. -/
def accepts (spec : FilterSpec) (context : FilterContext) (card : Card) : Bool :=
  passesCommander context card && spec.passesIgnored context card && spec.passesSearch card &&
    spec.passesColors card && spec.passesRarities card && spec.passesManaValues card &&
    spec.passesSets card && spec.passesCardTypes card && spec.passesSubtypes card &&
    spec.passesLegalities card && spec.passesLayouts card && spec.passesGames card &&
    spec.passesTags card && spec.passesRelease context card

end FilterSpec

/-- The cards that a filter keeps, in their order. -/
def filterCards (cards : List Card) (spec : FilterSpec) (context : FilterContext) : List Card :=
  cards.filter (spec.accepts context)

end DeckBuilder
