import DeckBuilder.Card.Codec
import DeckBuilder.Catalogue.Basic
import DeckBuilder.Disk.Basic
import DeckBuilder.Gzip.Member
import DeckBuilder.Json.Parser
import DeckBuilder.Json.Printer

/-! # Reading catalogues

A catalogue is stored as the list of its cards, possibly as a gzip file.
-/

namespace DeckBuilder

namespace Catalogue

def text (catalogue : Catalogue) : String :=
  (Json.ofList Card.toJson catalogue.cards).compact

def ofText? (text : String) : Option Catalogue := do
  let json ← Json.parse? text
  let cards ← json.toList? Card.ofJson?
  return ⟨cards⟩

/-- The catalogue of the bytes of a text. -/
def ofBytes (bytes : ByteArray) : Except DeckError Catalogue :=
  match String.fromUTF8? bytes with
  | none => .error .unreadable
  | some text =>
    match ofText? text with
    | some catalogue => .ok catalogue
    | none => .error .malformed

/-- The catalogue of a file, which is a gzip file if its name says so. -/
def load (disk : Disk) (path : String) : Except DeckError Catalogue :=
  match disk.entry? path with
  | none => .error (.missingCatalogue path)
  | some .directory => .error .unreadable
  | some (.file contents) =>
    if FileName.hasExtension "gz" path then
      match Gzip.decompress? contents with
      | some bytes => ofBytes bytes
      | none => .error .unreadable
    else ofBytes contents

end Catalogue

end DeckBuilder
