import DeckBuilder.Text.Decimal

/-! # Errors -/

namespace DeckBuilder

/-- Why an operation failed. -/
inductive DeckError where
  /-- Bytes that are no text, a damaged gzip file, or a directory in place of a file. -/
  | unreadable
  /-- A place where no file can be written. -/
  | unwritable
  /-- A text that is no document, or not one of the right kind. -/
  | malformed
  /-- A catalogue file that is not there. -/
  | missingCatalogue (path : String)
  /-- A store key with characters that keys cannot have. -/
  | invalidKey (key : String)
  /-- A text that names no mana bucket. -/
  | invalidManaBucket (text : String)
  /-- Pages without room for a card. -/
  | emptyPages
  /-- A stored filter that was saved from a filter with another schema. -/
  | staleFilter (key : String) (stored current : Int32)
deriving DecidableEq, Repr

namespace DeckError

/-- What is told to the user. -/
def message : DeckError → String
  | unreadable => "IO error: stored data cannot be read"
  | unwritable => "IO error: data cannot be stored"
  | malformed => "JSON error: stored data has the wrong form"
  | missingCatalogue path => "Not found: Catalogue file '" ++ path ++ "' does not exist"
  | invalidKey key =>
    "Invalid argument: store key '" ++ key ++ "' may only contain letters, digits, '-' and '_'"
  | invalidManaBucket text => "invalid mana bucket '" ++ text ++ "'"
  | emptyPages => "Invalid argument: page size must be at least 1"
  | staleFilter key stored current =>
    "Stored filter '" ++ key ++ "' no longer matches the current filter schema (stored hash " ++
      signedDecimal stored.toInt ++ ", current hash " ++ signedDecimal current.toInt ++ ")"

end DeckError

end DeckBuilder
