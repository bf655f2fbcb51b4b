import DeckBuilder.Proofs.Filter.Acceptance
import DeckBuilder.Proofs.Sort.Order
import DeckBuilder.Search.Basic
import Mathlib.Data.List.Basic

/-! # Pages of a search

A search filters and then sorts, but it could as well sort before it filters: sorting keeps the
order of cards that compare equal, with which the cards that a filter drops have nothing to do.

As long as there are fewer items than 64-bit numbers, the bounds of a page that saturate lie past
the end of the list. So a page is the part of the list that it should be, and the pages in their
order make up the list.
-/

namespace DeckBuilder

section

variable {α : Type} {items : List α} {size : UInt64}

/-- A page of a list that is short enough to be numbered. -/
theorem paginate_eq (short : items.length < UInt64.size) (page size : UInt64) :
    paginate items page size = (items.drop (page.toNat * size.toNat)).take size.toNat := by
  have fits : items.length ≤ maxIndex := Nat.le_sub_one_of_lt short
  have unsaturated (bound : Nat) :
      min (min bound maxIndex) items.length = min bound items.length := by
    rw [Nat.min_assoc, Nat.min_eq_right fits]
  simp only [paginate, unsaturated]
  rw [← List.take_eq_take_min, List.drop_take, Nat.add_sub_cancel_left]
  by_cases inside : page.toNat * size.toNat ≤ items.length
  · rw [Nat.min_eq_left inside]
  · have past : items.length ≤ page.toNat * size.toNat := Nat.le_of_not_le inside
    rw [Nat.min_eq_right past, List.drop_length, List.drop_eq_nil_of_le past]

/-- The first pages together are the first items. -/
theorem flatMap_pages (items : List α) (width count : Nat) :
    ((List.range count).flatMap fun page => (items.drop (page * width)).take width) =
      items.take (count * width) := by
  induction count with
  | zero => simp
  | succ count ih =>
    rw [List.range_succ, List.flatMap_append, ih, Nat.succ_mul, List.take_add,
      List.flatMap_singleton]

section

variable (room : 1 ≤ size)

include room

theorem toNat_size_pos : 0 < size.toNat := by
  rw [UInt64.le_iff_toNat_le] at room
  exact room

/-- There are as many pages as it takes to hold the items, and not one more. -/
theorem lt_pageCount_iff {total page : Nat} :
    page < pageCount total size ↔ page * size.toNat < total := by
  have positive := toNat_size_pos room
  have some : size ≠ 0 := by
    rintro rfl
    exact absurd positive (Nat.lt_irrefl 0)
  rw [pageCount, if_neg some, Nat.lt_div_iff_mul_lt positive]
  omega

/-- The pages hold all items. -/
theorem le_pageCount_mul (total : Nat) : total ≤ pageCount total size * size.toNat := by
  have last : ¬ pageCount total size < pageCount total size := Nat.lt_irrefl _
  rw [lt_pageCount_iff room] at last
  exact Nat.le_of_not_lt last

/-- A page that there is has a number of 64 bits. -/
theorem toNat_ofNat_of_lt_pageCount {total page : Nat} (short : total < UInt64.size)
    (inside : page < pageCount total size) : (UInt64.ofNat page).toNat = page := by
  have positive := toNat_size_pos room
  have before := (lt_pageCount_iff room).mp inside
  have bound : page ≤ page * size.toNat := Nat.le_mul_of_pos_right page positive
  exact UInt64.toNat_ofNat_of_lt' (by omega)

end

theorem length_paginate (short : items.length < UInt64.size) (page size : UInt64) :
    (paginate items page size).length =
      min size.toNat (items.length - page.toNat * size.toNat) := by
  rw [paginate_eq short, List.length_take, List.length_drop]

/-- Put together in their order, the pages are the list. -/
theorem flatMap_paginate (short : items.length < UInt64.size) (room : 1 ≤ size) :
    ((List.range (pageCount items.length size)).flatMap fun page =>
      paginate items (.ofNat page) size) = items := by
  calc ((List.range (pageCount items.length size)).flatMap fun page =>
        paginate items (.ofNat page) size)
      = (List.range (pageCount items.length size)).flatMap fun page =>
          (items.drop (page * size.toNat)).take size.toNat := by
        refine List.flatMap_congr fun page inside => ?_
        rw [paginate_eq short, toNat_ofNat_of_lt_pageCount room short (List.mem_range.mp inside)]
    _ = items.take (pageCount items.length size * size.toNat) := flatMap_pages ..
    _ = items := List.take_of_length_le (le_pageCount_mul room items.length)

end

/-- **Filtering and sorting commute.** The cards that a filter keeps are sorted as they stand in the
sorted list, and sorting what has been sorted changes nothing. So a search gives the same result in
whatever order it makes its two passes. -/
theorem sortCards_filterCards (filter : FilterSpec) (sort : SortSpec) (context : FilterContext) :
    (∀ cards, sortCards (filterCards cards filter context) sort =
      filterCards (sortCards cards sort) filter context) ∧
      (∀ cards, sortCards (sortCards cards sort) sort = sortCards cards sort) ∧
      ∀ catalogue : Catalogue,
        catalogue.search filter sort context =
          filterCards (sortCards catalogue.cards sort) filter context ∧
        sortCards (catalogue.search filter sort context) sort =
          catalogue.search filter sort context := by
  have commute (cards : List Card) : sortCards (filterCards cards filter context) sort =
      filterCards (sortCards cards sort) filter context :=
    sortCards_filter cards sort (filter.accepts context)
  exact ⟨commute, fun cards => sortCards_sortCards cards sort,
    fun catalogue => ⟨commute catalogue.cards, sortCards_sortCards _ sort⟩⟩

namespace Catalogue

/-- A search finds no more cards than there are. -/
theorem length_search_le (catalogue : Catalogue) (filter : FilterSpec) (sort : SortSpec)
    (context : FilterContext) :
    (catalogue.search filter sort context).length ≤ catalogue.cards.length := by
  rw [search, sortCards, List.length_mergeSort]
  exact List.length_filter_le _ _

/-- **Pages partition the result of a search.** Put together in their order, the pages that there
are make up the result; all of them but the last are full, the last one holds a card at least, and
every page past it is empty, whatever its number. Each page knows how many cards and pages there
are. -/
theorem searchPage_partitions (catalogue : Catalogue) (filter : FilterSpec) (sort : SortSpec)
    (context : FilterContext) {size : UInt64} (numbered : catalogue.cards.length < UInt64.size)
    (room : 1 ≤ size) :
    let results := catalogue.search filter sort context
    let pageAt := catalogue.searchPage filter sort context size
    let count := pageCount results.length size
    ((List.range count).flatMap fun page => (pageAt (.ofNat page)).cards) = results ∧
      (∀ page, (pageAt page).total = results.length ∧ (pageAt page).pageCount = count) ∧
      (∀ page : UInt64, page.toNat + 1 < count → (pageAt page).cards.length = size.toNat) ∧
      (∀ page : UInt64, page.toNat + 1 = count →
        1 ≤ (pageAt page).cards.length ∧ (pageAt page).cards.length ≤ size.toNat) ∧
      ∀ page : UInt64, count ≤ page.toNat → (pageAt page).cards = [] := by
  intro results pageAt count
  have short : results.length < UInt64.size :=
    Nat.lt_of_le_of_lt (catalogue.length_search_le filter sort context) numbered
  have length (page : UInt64) : (pageAt page).cards.length =
      min size.toNat (results.length - page.toNat * size.toNat) :=
    length_paginate short page size
  have positive := toNat_size_pos room
  refine ⟨flatMap_paginate short room, fun page => ⟨rfl, rfl⟩, fun page earlier => ?_,
    fun page last => ?_, fun page past => ?_⟩
  · have next := (lt_pageCount_iff room).mp earlier
    rw [Nat.succ_mul] at next
    rw [length]
    omega
  · have inside := (lt_pageCount_iff room).mp (Nat.lt_of_succ_le (Nat.le_of_eq last))
    rw [length]
    omega
  · have outside := mt (lt_pageCount_iff room).mpr (Nat.not_lt.mpr past)
    refine List.eq_nil_of_length_eq_zero ?_
    rw [length]
    omega

/-- Three cards that differ in their IDs. -/
def trio : Catalogue :=
  ⟨[.mortify, { Card.mortify with id := "second" }, { Card.mortify with id := "third" }]⟩

theorem searchPage_partitions_trio :
    let pageAt := trio.searchPage .standard ⟨[]⟩ .plain 2
    trio.cards.length < UInt64.size ∧ (1 : UInt64) ≤ 2 ∧
      (pageAt 0).cards ++ (pageAt 1).cards = trio.cards ∧
      -- The product of number and size of this page is the first number that has no 64 bits.
      (pageAt 0x8000000000000000).cards = [] := by
  intro pageAt
  have numbered : trio.cards.length < UInt64.size := by decide
  have room : (1 : UInt64) ≤ 2 := by decide
  have results : trio.search .standard ⟨[]⟩ .plain = trio.cards := by
    rw [search, sortCards_eq_self rfl]
    decide +kernel
  obtain ⟨whole, -, -, -, past⟩ := searchPage_partitions trio .standard ⟨[]⟩ .plain numbered room
  rw [results] at whole past
  refine ⟨numbered, room, ?_, past _ (by decide)⟩
  rw [← whole]
  simp [pageCount, List.range_succ, pageAt, trio]

end Catalogue

end DeckBuilder
