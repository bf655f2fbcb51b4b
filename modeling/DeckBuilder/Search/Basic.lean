import DeckBuilder.Catalogue.Basic
import DeckBuilder.Filter.Acceptance
import DeckBuilder.Sort.Order

/-! # Searching a catalogue

Filter, sort, then cut out a page; and the draw of a random commander. Pages are numbered from zero.
Their bounds saturate at the largest 64-bit number, and pages past the end are empty.
-/

namespace DeckBuilder

/-! ## Pages -/

/-- The largest 64-bit number. -/
def maxIndex : Nat := UInt64.size - 1

/-- The slice of a list that makes up a page. -/
def paginate {α : Type} (items : List α) (page size : UInt64) : List α :=
  let start := min (min (page.toNat * size.toNat) maxIndex) items.length
  let stop := min (min (start + size.toNat) maxIndex) items.length
  (items.take stop).drop start

/-- The number of pages of a size that items fill; none for pages without room. -/
def pageCount (total : Nat) (size : UInt64) : Nat :=
  if size = 0 then 0 else (total + size.toNat - 1) / size.toNat

/-- One page of search results. -/
structure CardPage where
  cards : List Card
  /-- The number of results on all pages. -/
  total : Nat
  page : UInt64
  pageSize : UInt64

/-- The number of pages of the results. -/
def CardPage.pageCount (page : CardPage) : Nat :=
  DeckBuilder.pageCount page.total page.pageSize

namespace Catalogue

/-- Every card that a filter keeps, sorted. -/
def search (catalogue : Catalogue) (filter : FilterSpec) (sort : SortSpec)
    (context : FilterContext) : List Card :=
  sortCards (filterCards catalogue.cards filter context) sort

/-- One page of a search. -/
def searchPage (catalogue : Catalogue) (filter : FilterSpec) (sort : SortSpec)
    (context : FilterContext) (pageSize page : UInt64) : CardPage :=
  let results := catalogue.search filter sort context
  ⟨paginate results page pageSize, results.length, page, pageSize⟩

end Catalogue

/-! ## Random commanders -/

namespace Draw

/-- The number of 32-bit words. -/
def wordCount : Nat := 0x100000000

/-- The number of leading zeros of a 32-bit word. -/
def leadingZeros (n : Nat) : Nat :=
  if n = 0 then 32 else 31 - n.log2

/-- The largest low half of a product that an unbiased draw below `n` accepts. -/
def zone (n : Nat) : Nat :=
  (n <<< leadingZeros n + (wordCount - 1)) % wordCount

/-- An unbiased index below `n`: the high half of a random word times `n`, the word being drawn
again when the low half falls outside the zone. When the words run out, zeros follow. -/
def index (n : Nat) : List UInt32 → Nat
  | [] => 0
  | word :: words =>
    let product := word.toNat * n
    if product % wordCount ≤ zone n then product / wordCount else index n words

end Draw

/-- A random card that can lead a deck and passes the filter, drawn with the given random words. -/
def Catalogue.randomCommander? (catalogue : Catalogue) (filter : FilterSpec)
    (context : FilterContext) (words : List UInt32) : Option Card :=
  let candidates := filterCards catalogue.cards filter { context with selectingCommander := true }
  candidates[Draw.index candidates.length words]?

end DeckBuilder
