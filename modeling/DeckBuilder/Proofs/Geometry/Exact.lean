import Mathlib.Algebra.Order.Ring.Defs
import DeckBuilder.Geometry.Basic

/-! # Exact coordinates

The numbers of an ordered ring, such as the integers and the rational numbers, are coordinates that
are computed without rounding.
-/

namespace DeckBuilder

namespace ExactCoordinates

scoped instance ofOrderedRing {α : Type} [Ring α] [LinearOrder α] : Coordinate α where
  beq first second := decide (first = second)
  decidableLT := inferInstance

end ExactCoordinates

open scoped ExactCoordinates

variable {α : Type} [Ring α] [LinearOrder α]

theorem larger_eq_max (first second : α) : larger first second = max first second := by
  unfold larger
  split
  · rename_i below
    exact (max_eq_right (le_of_lt below)).symm
  · rename_i notBelow
    have itself : (first == first) = true := decide_eq_true rfl
    rw [if_pos itself]
    exact (max_eq_left (not_lt.mp notBelow)).symm

theorem le_larger_left (first second : α) : first ≤ larger first second :=
  (le_max_left ..).trans_eq (larger_eq_max ..).symm

theorem le_larger_right (first second : α) : second ≤ larger first second :=
  (le_max_right ..).trans_eq (larger_eq_max ..).symm

theorem le_foldl_larger_start {β : Type} (size : β → α) (items : List β) (start : α) :
    start ≤ items.foldl (fun most item => larger most (size item)) start := by
  induction items generalizing start with
  | nil => exact le_refl start
  | cons item rest ih => exact (le_larger_left start (size item)).trans (ih _)

/-- The most of some sizes is not less than any of them. -/
theorem le_foldl_larger {β : Type} (size : β → α) {items : List β} {item : β}
    (member : item ∈ items) (start : α) :
    size item ≤ items.foldl (fun most item => larger most (size item)) start := by
  induction items generalizing start with
  | nil => cases member
  | cons first rest ih =>
    rcases List.mem_cons.mp member with rfl | later
    · exact (le_larger_right start (size item)).trans (le_foldl_larger_start size rest _)
    · exact ih later _

namespace Point

theorem offset_assoc (point first second : Point α) :
    (point.offset first).offset second = point.offset (first.offset second) :=
  congrArg₂ Point.mk (add_assoc ..) (add_assoc ..)

theorem minus_zero (point : Point α) : point.minus .zero = point := by
  have same (coordinate : α) : coordinate - ((0 : Nat) : α) = coordinate := by
    rw [Nat.cast_zero, sub_zero]
  exact congrArg₂ Point.mk (same point.x) (same point.y)

theorem minus_offset (point origin : Point α) : (point.minus origin).offset origin = point :=
  congrArg₂ Point.mk (sub_add_cancel ..) (sub_add_cancel ..)

/-- Displacements can be added up before the point is moved. -/
theorem foldl_offset {β : Type} (position : β → Point α) (items : List β)
    (point displacement : Point α) :
    items.foldl (fun moved item => moved.offset (position item)) (point.offset displacement) =
      point.offset (items.foldl (fun moved item => moved.offset (position item)) displacement) := by
  induction items generalizing displacement with
  | nil => rfl
  | cons item rest ih => rw [List.foldl_cons, List.foldl_cons, offset_assoc, ih]

end Point

end DeckBuilder
