/-! # Points and rectangles

Placements on a board are computed over any type with the arithmetic of coordinates: floating point
numbers when a board is run, exact numbers when its geometry is studied.
-/

namespace DeckBuilder

/-! ## Coordinates -/

/-- The arithmetic of coordinates. -/
class Coordinate (α : Type) extends Add α, Sub α, Mul α, NatCast α, LT α, BEq α where
  decidableLT : DecidableLT α

instance Coordinate.instDecidableLT {α : Type} [Coordinate α] : DecidableLT α :=
  Coordinate.decidableLT

instance : Coordinate Float where
  natCast := Float.ofNat
  decidableLT := inferInstance

/-- The larger of two coordinates. One that is not a number, and so differs from itself, counts for
less than any other. -/
def larger {α : Type} [Coordinate α] (first second : α) : α :=
  if first < second then second else if first == first then first else second

/-! ## Shapes -/

/-- A point of the board, or a displacement. -/
structure Point (α : Type) where
  x : α
  y : α
deriving DecidableEq, Repr

/-- A rectangle with sides along the axes. -/
structure Rect (α : Type) where
  origin : Point α
  width : α
  height : α
deriving DecidableEq, Repr

variable {α : Type} [Coordinate α]

namespace Point

/-- The point with both coordinates zero. -/
def zero : Point α :=
  ⟨(0 : Nat), (0 : Nat)⟩

/-- The point moved by a displacement. -/
def offset (point displacement : Point α) : Point α :=
  ⟨point.x + displacement.x, point.y + displacement.y⟩

/-- The displacement from another point. -/
def minus (point origin : Point α) : Point α :=
  ⟨point.x - origin.x, point.y - origin.y⟩

/-- Whether two points have equal coordinates. -/
def sameSpot (first second : Point α) : Bool :=
  first.x == second.x && first.y == second.y

end Point

/-- Whether two rectangles share some area. -/
def Rect.intersects (first second : Rect α) : Bool :=
  decide (first.origin.x < second.origin.x + second.width) &&
    decide (second.origin.x < first.origin.x + first.width) &&
    decide (first.origin.y < second.origin.y + second.height) &&
    decide (second.origin.y < first.origin.y + first.height)

theorem Rect.intersects_iff {first second : Rect α} :
    first.intersects second ↔
      first.origin.x < second.origin.x + second.width ∧
        second.origin.x < first.origin.x + first.width ∧
        first.origin.y < second.origin.y + second.height ∧
        second.origin.y < first.origin.y + first.height := by
  simp only [Rect.intersects, Bool.and_eq_true, decide_eq_true_eq, and_assoc]

end DeckBuilder
