import DeckBuilder.Decklist.Line
import DeckBuilder.Text.Lowercase

/-! # Reading decklists

A decklist is made of lines under section headers. Lines before the first header belong to the main
deck, blank lines count for nothing, and a `Deck` header after some entries starts another deck.
-/

namespace DeckBuilder

/-- A section of a decklist. -/
inductive DecklistSection where
  | commander
  | companion
  | deck
  | sideboard
deriving DecidableEq, Repr

/-- The section that a header opens, in any case. -/
def DecklistSection.ofHeader? (line : List Char) : Option DecklistSection :=
  match String.ofList (Text.lower line) with
  | "commander" => some commander
  | "companion" => some companion
  | "deck" => some deck
  | "sideboard" => some sideboard
  | _ => none

/-- A deck of a decklist, by section. -/
structure ParsedDeck where
  commander : List DecklistLine
  companion : List DecklistLine
  deck : List DecklistLine
  sideboard : List DecklistLine
deriving DecidableEq, Repr

namespace ParsedDeck

/-- A deck without entries. -/
def empty : ParsedDeck :=
  ⟨[], [], [], []⟩

/-- Whether a deck has no entries. -/
def isEmpty (deck : ParsedDeck) : Bool :=
  deck.commander.isEmpty && deck.companion.isEmpty && deck.deck.isEmpty && deck.sideboard.isEmpty

/-- Adds an entry at the end of a section. -/
def add (deck : ParsedDeck) (line : DecklistLine) : DecklistSection → ParsedDeck
  | .commander => { deck with commander := deck.commander ++ [line] }
  | .companion => { deck with companion := deck.companion ++ [line] }
  | .deck => { deck with deck := deck.deck ++ [line] }
  | .sideboard => { deck with sideboard := deck.sideboard ++ [line] }

end ParsedDeck

/-- The decks of a decklist, and the lines that are no entries. -/
structure ParsedDecklist where
  decks : List ParsedDeck
  errors : List String
deriving DecidableEq, Repr

namespace ParsedDecklist

/-- Where a reader stands: what it has read, the deck it is in, and the section. -/
structure Reading where
  finished : ParsedDecklist
  current : ParsedDeck
  part : DecklistSection
deriving DecidableEq, Repr

namespace Reading

/-- The reader before the first line. -/
def start : Reading :=
  ⟨⟨[], []⟩, .empty, .deck⟩

/-- Reads a header. -/
def header (reading : Reading) (part : DecklistSection) : Reading :=
  if part = .deck && !reading.current.isEmpty then
    ⟨{ reading.finished with decks := reading.finished.decks ++ [reading.current] }, .empty, part⟩
  else { reading with part }

/-- Reads a trimmed line that is not blank. -/
def line (reading : Reading) (text : List Char) : Reading :=
  match DecklistSection.ofHeader? text with
  | some part => reading.header part
  | none =>
    match DecklistLine.parse? text with
    | some entry => { reading with current := reading.current.add entry reading.part }
    | none =>
      { reading with
        finished := { reading.finished with
          errors := reading.finished.errors ++ [String.ofList text] } }

/-- What has been read when the text ends. -/
def finish (reading : Reading) : ParsedDecklist :=
  if reading.current.isEmpty then reading.finished
  else { reading.finished with decks := reading.finished.decks ++ [reading.current] }

end Reading

/-- The trimmed lines of a text that are not blank. -/
def lines (text : String) : List (List Char) :=
  ((Text.splitWhere (· = '\n') text.toList).map Text.trim).filter fun line => !line.isEmpty

/-- Reads a decklist. -/
def ofText (text : String) : ParsedDecklist :=
  ((lines text).foldl Reading.line .start).finish

end ParsedDecklist

end DeckBuilder
