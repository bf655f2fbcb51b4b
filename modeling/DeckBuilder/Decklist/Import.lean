import DeckBuilder.Catalogue.Basic
import DeckBuilder.Deck.Edit
import DeckBuilder.Decklist.CopyLimit
import DeckBuilder.Decklist.Lookup
import DeckBuilder.Decklist.Parser

/-! # Importing decklists

The names of a decklist are resolved to cards, repeated cards are merged, and counts are cut to the
copy limits. Applying an import replaces the normal cards of the main deck and keeps everything else
about a deck.
-/

namespace DeckBuilder

/-- A decklist resolved to cards. -/
structure DeckImport where
  commander : Option Card
  /-- The cards of the main deck with their counts, in the order in which they were first listed. -/
  cards : List (Card × UInt32)
  /-- The names that mean no card, sorted. -/
  unmatched : List String
  /-- The lines that are no entries. -/
  errors : List String
deriving DecidableEq

namespace CopyLimit

/-- A count cut to the limit. -/
def cut : CopyLimit → UInt32 → UInt32
  | limited most, count => if count ≤ most then count else most
  | unlimited, count => count

end CopyLimit

namespace DeckImport

/-- The import that has resolved nothing yet. -/
def empty (errors : List String) : DeckImport :=
  ⟨none, [], [], errors⟩

/-- Notes a name that means no card. -/
def miss (imported : DeckImport) (name : String) : DeckImport :=
  { imported with unmatched := imported.unmatched ++ [name] }

/-- Resolves a line of a commander section. -/
def addCommander (lookup : CardLookup) (imported : DeckImport) (line : DecklistLine) : DeckImport :=
  match lookup.find? line.name with
  | some card => { imported with commander := some card }
  | none => imported.miss ("Commander: " ++ line.name)

/-- Counts copies of a card of the main deck. -/
def count (imported : DeckImport) (card : Card) (copies : UInt32) : DeckImport :=
  let limit := card.allowedCopies
  if imported.cards.any (·.1.id == card.id) then
    { imported with
      cards := changeFirst (·.1.id == card.id)
        (fun entry => (entry.1, limit.cut (addCounts entry.2 copies))) imported.cards }
  else { imported with cards := imported.cards ++ [(card, limit.cut copies)] }

/-- Resolves a line of the main deck. The commander does not count as a card of the main deck. -/
def addMain (lookup : CardLookup) (imported : DeckImport) (line : DecklistLine) : DeckImport :=
  match lookup.find? line.name with
  | some card =>
    if imported.commander.any (·.id == card.id) then imported
    else imported.count card line.count
  | none => imported.miss line.name

/-- Resolves a deck of a decklist: its commander section, then its main deck. -/
def addDeck (lookup : CardLookup) (imported : DeckImport) (deck : ParsedDeck) : DeckImport :=
  deck.deck.foldl (addMain lookup) (deck.commander.foldl (addCommander lookup) imported)

/-- Resolves a decklist. -/
def ofParsed (parsed : ParsedDecklist) (lookup : CardLookup) : DeckImport :=
  let imported := parsed.decks.foldl (addDeck lookup) (empty parsed.errors)
  { imported with unmatched := SortedMap.distinctSorted imported.unmatched }

/-- Reads and resolves a decklist. -/
def ofText (text : String) (catalogue : Catalogue) : DeckImport :=
  ofParsed (.ofText text) (.ofCards catalogue.cards)

end DeckImport

/-- The ID of the printing that a card is shown in by default. -/
def Card.defaultVersion? (card : Card) : Option String :=
  card.defaultPrinting?.map (·.id)

namespace Deck

variable {α : Type} [Coordinate α]

/-- Puts a card into the commander slot, or into a new one on a free spot. -/
def placeCommander (cards : List (DeckCard α)) (commander : Card) : List (DeckCard α) :=
  if cards.any (·.role == .commander) then
    changeFirst (·.role == .commander)
      (fun card => { card with
        cardId := commander.id, count := 1, phantoms := [], version := commander.defaultVersion? })
      cards
  else
    cards ++ [{ DeckCard.single commander.id .main (freePosition cards) with
      role := .commander, version := commander.defaultVersion? }]

/-- Adds a card of the main deck on a free spot. -/
def placeCard (cards : List (DeckCard α)) (entry : Card × UInt32) : List (DeckCard α) :=
  cards ++ [{ DeckCard.single entry.1.id .main (freePosition cards) with
    count := entry.2, version := entry.1.defaultVersion? }]

omit [Coordinate α] in
/-- Sorts deck cards by the lower-case names of their cards; cards that are not in the catalogue
come first. -/
def sortByName (catalogue : Catalogue) (cards : List (DeckCard α)) : List (DeckCard α) :=
  let name (card : DeckCard α) : String :=
    ((catalogue.get? card.cardId).map fun found => lowercase found.name).getD ""
  cards.mergeSort fun first second => OrderKey.compare (name first) (name second) != .gt

/-- Replaces the normal cards of the main deck by an import. An imported commander takes over the
commander slot, and is not a card of the main deck as well. -/
def applyImport (deck : Deck α) (imported : DeckImport) (catalogue : Catalogue) : Deck α :=
  let kept := deck.cards.filter fun card => !card.isMainNormal
  let led := match imported.commander with
    | some commander => placeCommander kept commander
    | none => kept
  let main := imported.cards.filter fun entry => !imported.commander.any (·.id == entry.1.id)
  { deck with cards := sortByName catalogue (main.foldl placeCard led) }

end Deck

end DeckBuilder
