import Mathlib.Data.Nat.Cast.Order.Ring
import DeckBuilder.Proofs.Geometry.Exact

/-! # Rectangles and grids

When a rectangle covers another one or lies below it, and why the cells of a grid keep apart.
-/

namespace DeckBuilder

variable {α : Type} [Ring α] [LinearOrder α]

open scoped ExactCoordinates

namespace Rect

variable {first second outer inner other : Rect α}

theorem intersects_comm : first.intersects second ↔ second.intersects first := by
  rw [intersects_iff, intersects_iff]
  constructor <;> exact fun ⟨left, right, top, bottom⟩ => ⟨right, left, bottom, top⟩

/-- A rectangle lies entirely inside another one. -/
structure Covers (outer inner : Rect α) : Prop where
  left : outer.origin.x ≤ inner.origin.x
  right : inner.origin.x + inner.width ≤ outer.origin.x + outer.width
  top : outer.origin.y ≤ inner.origin.y
  bottom : inner.origin.y + inner.height ≤ outer.origin.y + outer.height

/-- What meets a rectangle meets whatever covers it. -/
theorem Covers.intersects (covers : outer.Covers inner) (meets : inner.intersects other) :
    outer.intersects other := by
  obtain ⟨left, right, top, bottom⟩ := intersects_iff.mp meets
  exact intersects_iff.mpr ⟨covers.left.trans_lt left, right.trans_le covers.right,
    covers.top.trans_lt top, bottom.trans_le covers.bottom⟩

/-- A rectangle is entirely below another one, as far down as this one's lower edge and further. -/
def Below (low high : Rect α) : Prop :=
  high.origin.y + high.height < low.origin.y

theorem Below.not_intersects (below : second.Below first) : ¬ first.intersects second := by
  intro meets
  obtain ⟨-, -, -, bottom⟩ := intersects_iff.mp meets
  exact bottom.asymm below

variable [IsStrictOrderedRing α]

/-- A rectangle covers what fits into it at a displacement from its origin. -/
theorem covers_offset {origin position : Point α} {width height extent depth : α}
    (across : 0 ≤ position.x ∧ position.x + extent ≤ width)
    (down : 0 ≤ position.y ∧ position.y + depth ≤ height) :
    Covers ⟨origin, width, height⟩ ⟨position.offset origin, extent, depth⟩ := by
  have edge {start shift extent width : α} (fits : shift + extent ≤ width) :
      shift + start + extent ≤ start + width := by
    rw [add_right_comm, add_comm start width]
    exact add_le_add_left fits start
  exact ⟨le_add_of_nonneg_left across.1, edge across.2, le_add_of_nonneg_left down.1, edge down.2⟩

end Rect

/-- Cells in rows from a corner on. -/
structure Grid (α : Type) [Ring α] [LinearOrder α] where
  columns : Nat
  corner : Point α
  /-- The steps from a cell to the next one in its row and to the one below it. -/
  across : α
  down : α
  across_nonneg : 0 ≤ across
  down_nonneg : 0 ≤ down

namespace Grid

variable {grid : Grid α} {index other : Nat} {first second : Rect α}

/-- Where a cell starts. -/
def point (grid : Grid α) (index : Nat) : Point α :=
  Point.offset
    ⟨(index % grid.columns : Nat) * grid.across, (index / grid.columns : Nat) * grid.down⟩
    grid.corner

/-- A rectangle starts where a cell does and does not reach out of it. -/
structure Holds (grid : Grid α) (index : Nat) (rect : Rect α) : Prop where
  origin : rect.origin = grid.point index
  width : rect.width ≤ grid.across
  height : rect.height ≤ grid.down

variable [IsStrictOrderedRing α]

theorem step_le {before after : Nat} (earlier : before < after) {step extent : α}
    (nonneg : 0 ≤ step) (fits : extent ≤ step) (start : α) :
    before * step + start + extent ≤ after * step + start := by
  have next : ((before + 1 : Nat) : α) ≤ (after : Nat) := Nat.cast_le.mpr earlier
  calc before * step + start + extent
      ≤ before * step + start + step := add_le_add_right fits _
    _ = ((before + 1 : Nat) : α) * step + start := by
      rw [Nat.cast_succ, add_mul, one_mul, add_right_comm]
    _ ≤ after * step + start := add_le_add_left (mul_le_mul_of_nonneg_right next nonneg) start

theorem Holds.not_intersects_of_lt (left : grid.Holds index first) (right : grid.Holds other second)
    (earlier : index % grid.columns < other % grid.columns ∨
      index / grid.columns < other / grid.columns) :
    ¬ first.intersects second := by
  intro meets
  obtain ⟨-, across, -, down⟩ := Rect.intersects_iff.mp meets
  rw [left.origin, right.origin] at across down
  rcases earlier with column | row
  · exact across.not_ge (step_le column grid.across_nonneg left.width grid.corner.x)
  · exact down.not_ge (step_le row grid.down_nonneg left.height grid.corner.y)

/-- Cells keep apart: two of them are in different columns or in different rows. -/
theorem Holds.not_intersects (left : grid.Holds index first) (right : grid.Holds other second)
    (apart : index ≠ other) : ¬ first.intersects second := by
  have cell (index : Nat) := Nat.mod_add_div index grid.columns
  have elsewhere : index % grid.columns ≠ other % grid.columns ∨
      index / grid.columns ≠ other / grid.columns := by
    by_contra same
    obtain ⟨column, row⟩ := not_or.mp same
    rw [not_not] at column row
    exact apart (by rw [← cell index, ← cell other, column, row])
  rw [Nat.ne_iff_lt_or_gt, Nat.ne_iff_lt_or_gt] at elsewhere
  rcases elsewhere with (before | after) | (before | after)
  · exact left.not_intersects_of_lt right (.inl before)
  · exact fun meets => right.not_intersects_of_lt left (.inl after) (Rect.intersects_comm.mp meets)
  · exact left.not_intersects_of_lt right (.inr before)
  · exact fun meets => right.not_intersects_of_lt left (.inr after) (Rect.intersects_comm.mp meets)

end Grid

end DeckBuilder
