import DeckBuilder.Board.Autosort
import DeckBuilder.Board.Basic
import DeckBuilder.Board.Codec
import DeckBuilder.Board.Drop
import DeckBuilder.Board.Node
import DeckBuilder.Board.Repair
import DeckBuilder.Calendar.Date
import DeckBuilder.Card.Basic
import DeckBuilder.Card.Codec
import DeckBuilder.Card.Color
import DeckBuilder.Card.Game
import DeckBuilder.Card.Image
import DeckBuilder.Card.Layout
import DeckBuilder.Card.Rarity
import DeckBuilder.Catalogue.Basic
import DeckBuilder.Catalogue.Reader
import DeckBuilder.Deck.Basic
import DeckBuilder.Deck.Codec
import DeckBuilder.Deck.Edit
import DeckBuilder.Deck.FreeSpot
import DeckBuilder.Deck.Nodes
import DeckBuilder.Deck.Reconcile
import DeckBuilder.Deck.Warnings
import DeckBuilder.Decklist.CopyLimit
import DeckBuilder.Decklist.Export
import DeckBuilder.Decklist.Import
import DeckBuilder.Decklist.Line
import DeckBuilder.Decklist.Lookup
import DeckBuilder.Decklist.Parser
import DeckBuilder.Disk.Basic
import DeckBuilder.Disk.FileName
import DeckBuilder.Disk.Path
import DeckBuilder.DistinctBy
import DeckBuilder.Error
import DeckBuilder.Filter.Acceptance
import DeckBuilder.Filter.Choices
import DeckBuilder.Filter.Codec
import DeckBuilder.Filter.Display
import DeckBuilder.Filter.ManaBucket
import DeckBuilder.Filter.Schema
import DeckBuilder.Filter.Spec
import DeckBuilder.Geometry.Basic
import DeckBuilder.Gzip.BitReader
import DeckBuilder.Gzip.Huffman
import DeckBuilder.Gzip.Inflate
import DeckBuilder.Gzip.Member
import DeckBuilder.Json.Basic
import DeckBuilder.Json.FloatReader
import DeckBuilder.Json.Parser
import DeckBuilder.Json.Printer
import DeckBuilder.Json.Record
import DeckBuilder.OrderCode
import DeckBuilder.Proofs.Board.Cycles
import DeckBuilder.Proofs.Board.Dropping
import DeckBuilder.Proofs.Board.Layers
import DeckBuilder.Proofs.Board.Nesting
import DeckBuilder.Proofs.Board.Pointers
import DeckBuilder.Proofs.Board.Positions
import DeckBuilder.Proofs.Board.Rebinding
import DeckBuilder.Proofs.Board.Repair
import DeckBuilder.Proofs.Board.Runs
import DeckBuilder.Proofs.Board.Settling
import DeckBuilder.Proofs.Board.Spacing
import DeckBuilder.Proofs.Board.Tidied
import DeckBuilder.Proofs.Board.Tidying
import DeckBuilder.Proofs.Board.Walks
import DeckBuilder.Proofs.Calendar.Date
import DeckBuilder.Proofs.Catalogue.RoundTrip
import DeckBuilder.Proofs.Deck.Editing
import DeckBuilder.Proofs.Deck.FreeSpot
import DeckBuilder.Proofs.Deck.Integrity
import DeckBuilder.Proofs.Deck.Leading
import DeckBuilder.Proofs.Deck.Membership
import DeckBuilder.Proofs.Deck.Merge
import DeckBuilder.Proofs.Deck.NodeIds
import DeckBuilder.Proofs.Deck.Opening
import DeckBuilder.Proofs.Deck.RawNodes
import DeckBuilder.Proofs.Deck.Reopen
import DeckBuilder.Proofs.Deck.Resaving
import DeckBuilder.Proofs.Deck.RoundTrip
import DeckBuilder.Proofs.Deck.Zones
import DeckBuilder.Proofs.Decklist.Accounting
import DeckBuilder.Proofs.Decklist.Applying
import DeckBuilder.Proofs.Decklist.Division
import DeckBuilder.Proofs.Decklist.Grammar
import DeckBuilder.Proofs.Decklist.Limits
import DeckBuilder.Proofs.Decklist.Lines
import DeckBuilder.Proofs.Decklist.Naming
import DeckBuilder.Proofs.Decklist.NumberWords
import DeckBuilder.Proofs.Decklist.Placing
import DeckBuilder.Proofs.Decklist.Reapplying
import DeckBuilder.Proofs.Decklist.RoundTrip
import DeckBuilder.Proofs.Decklist.Sections
import DeckBuilder.Proofs.Decklist.Totals
import DeckBuilder.Proofs.Filter.Acceptance
import DeckBuilder.Proofs.Filter.Actions
import DeckBuilder.Proofs.Filter.Brought
import DeckBuilder.Proofs.Filter.Colorless
import DeckBuilder.Proofs.Filter.Complements
import DeckBuilder.Proofs.Filter.Excluding
import DeckBuilder.Proofs.Filter.Printings
import DeckBuilder.Proofs.Filter.Relisting
import DeckBuilder.Proofs.Filter.Restriction
import DeckBuilder.Proofs.Filter.RoundTrip
import DeckBuilder.Proofs.Filter.Schema
import DeckBuilder.Proofs.Filter.Toggling
import DeckBuilder.Proofs.Geometry.Exact
import DeckBuilder.Proofs.Json.Documents
import DeckBuilder.Proofs.Json.Literals
import DeckBuilder.Proofs.Json.Record
import DeckBuilder.Proofs.Lists
import DeckBuilder.Proofs.Query.Clauses
import DeckBuilder.Proofs.Query.FreeText
import DeckBuilder.Proofs.Query.RoundTrip
import DeckBuilder.Proofs.Search.Pages
import DeckBuilder.Proofs.Session.Restoring
import DeckBuilder.Proofs.Sort.Alternates
import DeckBuilder.Proofs.Sort.Codes
import DeckBuilder.Proofs.Sort.Colors
import DeckBuilder.Proofs.Sort.Editing
import DeckBuilder.Proofs.Sort.Order
import DeckBuilder.Proofs.SortedMap
import DeckBuilder.Proofs.Store.Clearing
import DeckBuilder.Proofs.Store.Files
import DeckBuilder.Proofs.Store.Refinement
import DeckBuilder.Proofs.Store.Reloading
import DeckBuilder.Proofs.Store.StoredFilter
import DeckBuilder.Proofs.Text.Decimal
import DeckBuilder.Proofs.Text.Lowercase
import DeckBuilder.Proofs.Text.Pattern
import DeckBuilder.Proofs.Text.Pieces
import DeckBuilder.Proofs.Text.RollingHash
import DeckBuilder.Query.Basic
import DeckBuilder.Query.Parser
import DeckBuilder.Search.Basic
import DeckBuilder.Session
import DeckBuilder.Sort.Order
import DeckBuilder.Sort.Spec
import DeckBuilder.SortedMap.Basic
import DeckBuilder.Store.Basic
import DeckBuilder.Store.StoredFilter
import DeckBuilder.Text.Blank
import DeckBuilder.Text.CaseTable
import DeckBuilder.Text.Decimal
import DeckBuilder.Text.DecimalDigit
import DeckBuilder.Text.Lowercase
import DeckBuilder.Text.Pieces
import DeckBuilder.Toggle
