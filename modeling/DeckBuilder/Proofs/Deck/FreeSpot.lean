import Mathlib.Algebra.Order.Ring.Int
import Mathlib.Data.Nat.Cast.Order.Ring
import DeckBuilder.Deck.FreeSpot
import DeckBuilder.Proofs.Geometry.Exact
import Mathlib.Data.List.Nodup
import Mathlib.Data.List.Perm.Subperm

/-! # The first free spot

With exact coordinates the spots of the grid are different points, so a deck cannot take all of the
spots that are looked at, one more than it has placements. So looking at one spot after the other
needs no bound: it comes to an end at the first spot on which nothing lies.
-/

namespace DeckBuilder

open scoped ExactCoordinates

variable {α : Type} [Ring α] [LinearOrder α] [IsStrictOrderedRing α]

theorem gridSpot_injective : Function.Injective (gridSpot : Nat → Point α) := by
  intro first second same
  obtain ⟨columns, rows⟩ := Point.mk.inj same
  have column : first % spotsPerRow * spotWidth = second % spotsPerRow * spotWidth :=
    Nat.cast_injective (R := α) columns
  have row : first / spotsPerRow * spotHeight = second / spotsPerRow * spotHeight :=
    Nat.cast_injective (R := α) rows
  simp only [spotsPerRow, spotWidth, spotHeight] at column row
  omega

omit [IsStrictOrderedRing α] in
theorem sameSpot_iff {first second : Point α} : first.sameSpot second ↔ first = second := by
  cases first
  cases second
  simp [Point.sameSpot, BEq.beq]

omit [IsStrictOrderedRing α] in
theorem isTaken_iff {cards : List (DeckCard α)} {spot : Point α} :
    isTaken cards spot ↔ spot ∈ (cards.flatMap (·.placements)).map (·.point) := by
  simp only [isTaken, List.any_eq_true, sameSpot_iff, List.mem_map, List.mem_flatMap]
  constructor
  · rintro ⟨card, isCard, position, placed, here⟩
    exact ⟨position, ⟨card, isCard, placed⟩, here⟩
  · rintro ⟨position, ⟨card, isCard, placed⟩, here⟩
    exact ⟨card, isCard, position, placed, here⟩

omit [IsStrictOrderedRing α] in
theorem ne_of_not_isTaken {cards : List (DeckCard α)} {spot : Point α}
    (free : isTaken cards spot = false) {card : DeckCard α} (isCard : card ∈ cards)
    {position : Position α} (placed : position ∈ card.placements) : position.point ≠ spot := by
  intro here
  refine Bool.eq_false_iff.mp free (isTaken_iff.mpr ?_)
  exact List.mem_map.mpr ⟨position, List.mem_flatMap.mpr ⟨card, isCard, placed⟩, here⟩

/-- One of the first spots is free, since there are more of them than placements. -/
theorem exists_free_gridSpot (cards : List (DeckCard α)) :
    ∃ n ∈ List.range (placementCount cards + 1), isTaken cards (gridSpot n) = false := by
  by_contra! taken
  have inside : (List.range (placementCount cards + 1)).map gridSpot ⊆
      (cards.flatMap (·.placements)).map (·.point) := by
    intro spot member
    obtain ⟨n, isNumber, rfl⟩ := List.mem_map.mp member
    exact isTaken_iff.mp (Bool.not_eq_false _ ▸ taken n isNumber)
  have different : ((List.range (placementCount cards + 1)).map (gridSpot (α := α))).Nodup :=
    List.Nodup.map gridSpot_injective List.nodup_range
  have bound := (List.subperm_of_subset different inside).length_le
  rw [List.length_map, List.length_range, List.length_map, placementCount] at bound
  omega

/-- The free spot is the first one on which nothing lies, and it is among the first spots. -/
theorem freeIndex_spec (cards : List (DeckCard α)) :
    freeIndex cards ≤ placementCount cards ∧
      isTaken cards (gridSpot (freeIndex cards)) = false ∧
      ∀ earlier < freeIndex cards, isTaken cards (gridSpot earlier) = true := by
  obtain ⟨n, isNumber, free⟩ := exists_free_gridSpot cards
  rw [freeIndex]
  cases found : (List.range (placementCount cards + 1)).find? fun n =>
      !isTaken cards (gridSpot n) with
  | none =>
    have taken := List.find?_eq_none.mp found n isNumber
    rw [free] at taken
    exact absurd rfl taken
  | some first =>
    obtain ⟨isFree, inside, before⟩ := List.find?_range_eq_some.mp found
    simp only [Bool.not_eq_true', Bool.not_not] at isFree before
    exact ⟨Nat.lt_succ_iff.mp (List.mem_range.mp inside), isFree, before⟩

/-- **Nothing lies on the free spot.** -/
theorem not_isTaken_freePosition (cards : List (DeckCard α)) :
    isTaken cards (freePosition cards).point = false :=
  (freeIndex_spec cards).2.1

/-! ## The order of the cards -/

section

variable {α : Type} [Coordinate α] {first second : List (DeckCard α)}

theorem isTaken_perm (same : first.Perm second) : isTaken first = isTaken second :=
  funext fun _ => same.any_eq

/-- The free spot does not depend on the order of the cards. -/
theorem freePosition_perm (same : first.Perm second) :
    freePosition first = freePosition second := by
  have count : placementCount first = placementCount second :=
    (same.flatMap_right _).length_eq
  rw [freePosition, freePosition, freeIndex, freeIndex, isTaken_perm same, count]

end

/-! ## Looking spot by spot -/

section

variable {α : Type} [Coordinate α]

/-- The last spot of a row is that far from the first one. -/
def rowWidth : Nat := 500

/-- The spot after a spot: the next one in its row, or the first one of the row below. -/
def Point.nextSpot (spot : Point α) : Point α :=
  if (rowWidth : α) < spot.x + (spotWidth : α) then ⟨(0 : Nat), spot.y + (spotHeight : α)⟩
  else ⟨spot.x + (spotWidth : α), spot.y⟩

/-- Looking at one spot after the other, from a given spot on and for as long as they are taken,
looks at the given spots and then comes to an end. -/
inductive Scans (cards : List (DeckCard α)) : Point α → List (Point α) → Prop where
  | found {spot : Point α} (free : isTaken cards spot = false) : Scans cards spot [spot]
  | next {spot : Point α} {rest : List (Point α)} (taken : isTaken cards spot = true)
      (onwards : Scans cards spot.nextSpot rest) : Scans cards spot (spot :: rest)

theorem Scans.unique {cards : List (DeckCard α)} {spot : Point α} {first second : List (Point α)}
    (left : Scans cards spot first) (right : Scans cards spot second) : first = second := by
  induction left generalizing second with
  | found free =>
    cases right with
    | found => rfl
    | next taken => simp [free] at taken
  | next taken onwards ih =>
    cases right with
    | found free => simp [free] at taken
    | next _ alsoOnwards => rw [ih alsoOnwards]

end

/-- The spots of the grid come one after the other. -/
theorem nextSpot_gridSpot (n : Nat) : (gridSpot n : Point α).nextSpot = gridSpot (n + 1) := by
  have across : (gridSpot n : Point α).x + (spotWidth : α) =
      (n % spotsPerRow * spotWidth + spotWidth : Nat) := (Nat.cast_add ..).symm
  have down : (gridSpot n : Point α).y + (spotHeight : α) =
      (n / spotsPerRow * spotHeight + spotHeight : Nat) := (Nat.cast_add ..).symm
  unfold Point.nextSpot
  rw [across, down]
  split
  · rename_i beyond
    have atEnd := Nat.cast_lt.mp beyond
    refine congrArg₂ Point.mk (congrArg Nat.cast ?_) (congrArg Nat.cast ?_)
    all_goals
      simp only [rowWidth, spotsPerRow, spotWidth, spotHeight] at atEnd ⊢
      omega
  · rename_i within
    have inRow := mt Nat.cast_lt.mpr within
    refine congrArg₂ Point.mk (congrArg Nat.cast ?_) (congrArg Nat.cast ?_)
    all_goals
      simp only [rowWidth, spotsPerRow, spotWidth, spotHeight] at inRow ⊢
      omega

/-- A scan goes through the spots that are taken up to the first free one. -/
theorem scans_gridSpot {cards : List (DeckCard α)} {start taken : Nat}
    (before : ∀ n, start ≤ n → n < start + taken → isTaken cards (gridSpot n) = true)
    (free : isTaken cards (gridSpot (start + taken)) = false) :
    Scans cards (gridSpot start) ((List.range' start (taken + 1)).map gridSpot) := by
  induction taken generalizing start with
  | zero => exact .found free
  | succ taken ih =>
    rw [List.range'_succ, List.map_cons]
    refine .next (before start (Nat.le_refl start) (by omega)) ?_
    rw [nextSpot_gridSpot]
    refine ih (fun n after inside => before n (by omega) (by omega)) ?_
    rwa [Nat.add_right_comm, Nat.add_assoc]

omit [Ring α] [LinearOrder α] [IsStrictOrderedRing α] in
theorem placementCount_eq (cards : List (DeckCard α)) :
    placementCount cards = cards.length + (cards.flatMap (·.phantoms)).length := by
  induction cards with
  | nil => rfl
  | cons card rest ih =>
    simp only [placementCount, DeckCard.placements, List.flatMap_cons, List.length_append,
      List.length_cons] at ih ⊢
    omega

/-- **The search for a free spot ends, at the first one.** Looking at the spots of the grid one
after the other, without a bound, comes to an end after at most one spot more than there are cards
and phantoms. The spots that are looked at are the first ones of the grid. Nothing lies on the last
of them, which is the free spot, and something lies on each of the others. -/
theorem scans_freePosition (cards : List (DeckCard α)) :
    ∃ taken ≤ cards.length + (cards.flatMap (·.phantoms)).length,
      (∀ looked, Scans cards .zero looked ↔ looked = (List.range (taken + 1)).map gridSpot) ∧
      freePosition cards = .free (gridSpot taken) ∧
      (∀ card ∈ cards, ∀ position ∈ card.placements, position.point ≠ gridSpot taken) ∧
      ∀ earlier < taken, ∃ card ∈ cards, ∃ position ∈ card.placements,
        position.point = gridSpot earlier := by
  obtain ⟨bound, free, before⟩ := freeIndex_spec cards
  have scan : Scans cards .zero ((List.range (freeIndex cards + 1)).map gridSpot) := by
    rw [List.range_eq_range']
    have atEnd : isTaken cards (gridSpot (0 + freeIndex cards)) = false := by rwa [Nat.zero_add]
    exact scans_gridSpot (fun n _ inside => before n (by omega)) atEnd
  refine ⟨freeIndex cards, bound.trans_eq (placementCount_eq cards), fun looked => ?_, rfl,
    fun _ isCard _ placed => ne_of_not_isTaken free isCard placed, fun earlier isBefore => ?_⟩
  · exact ⟨fun other => other.unique scan, fun same => same ▸ scan⟩
  · obtain ⟨position, placed, here⟩ := List.mem_map.mp (isTaken_iff.mp (before earlier isBefore))
    obtain ⟨card, isCard, ofCard⟩ := List.mem_flatMap.mp placed
    exact ⟨card, isCard, position, ofCard, here⟩

/-- Five cards that take up the first row of the grid together with a phantom. -/
def fullRow : List (DeckCard Int) :=
  [.single "shock" .main ⟨0, 0, none⟩,
    { DeckCard.single "opt" .main ⟨100, 0, none⟩ with phantoms := [⟨200, 0, some "ramp"⟩] },
    .single "island" .main ⟨500, 0, none⟩, .single "bolt" .sideboard ⟨300, 0, none⟩,
    .single "duress" .main ⟨400, 0, none⟩]

theorem scans_fullRow :
    (∀ looked, Scans fullRow .zero looked ↔
      looked = [⟨0, 0⟩, ⟨100, 0⟩, ⟨200, 0⟩, ⟨300, 0⟩, ⟨400, 0⟩, ⟨500, 0⟩, ⟨0, 50⟩]) ∧
      freePosition fullRow = ⟨0, 50, none⟩ := by
  obtain ⟨taken, -, scans, free, -, -⟩ := scans_freePosition fullRow
  have position : freePosition fullRow = ⟨0, 50, none⟩ := by decide +kernel
  rw [position] at free
  have sixth : 6 = taken := gridSpot_injective (congrArg Position.point free)
  subst sixth
  exact ⟨scans, position⟩

end DeckBuilder
