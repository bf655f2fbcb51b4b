import Mathlib.Data.Nat.Cast.Order.Ring
import DeckBuilder.Proofs.Board.Walks
import DeckBuilder.Proofs.Geometry.Grid

/-! # Absolute positions

Every node of a sound board has a place on it. With exact coordinates this is the place of its
parent moved by its own position, however deep it lies.
-/

namespace DeckBuilder.Board

variable {α : Type} {board : Board α}

section

variable [Coordinate α]

/-- Two nodes share some area of the board. -/
def Overlaps (board : Board α) (first second : String) : Prop :=
  ∃ left right, board.absoluteRect? first = some left ∧ board.absoluteRect? second = some right ∧
    left.intersects right

theorem overlaps_iff_intersects {first second : String} {area rect : Rect α}
    (left : board.absoluteRect? first = some area)
    (right : board.absoluteRect? second = some rect) :
    board.Overlaps first second ↔ area.intersects rect := by
  simp only [Overlaps, left, right, Option.some_inj, exists_and_left, exists_eq_left']

theorem Sound.exists_absolutePosition? (sound : board.Sound) {node : Node α}
    (member : node ∈ board.nodes) : ∃ origin, board.absolutePosition? node.id = some origin := by
  obtain ⟨above, met⟩ := sound.exists_map_get?_ancestors node.id
  exact ⟨_, sound.absolutePosition?_id member met⟩

theorem Sound.absoluteRect?_id (sound : board.Sound) {node : Node α} (member : node ∈ board.nodes)
    {origin : Point α} (placed : board.absolutePosition? node.id = some origin) :
    board.absoluteRect? node.id = some ⟨origin, node.width, node.height⟩ := by
  simp only [absoluteRect?, sound.get?_id member, placed, Option.bind_eq_bind, Option.bind_some]
  rfl

/-- A free node is where its position says. -/
theorem Sound.absolutePosition?_of_free (sound : board.Sound) {node : Node α}
    (member : node ∈ board.nodes) (free : node.parent = none) :
    board.absolutePosition? node.id = some node.position := by
  have alone : board.ancestors node.id = [] :=
    sound.ancestors_of_parent?_eq_none ((sound.parent?_id member).trans free)
  have met : (board.ancestors node.id).map board.get? = [].map some := by rw [alone]; rfl
  exact sound.absolutePosition?_id member met

end

open scoped ExactCoordinates

variable [Ring α] [LinearOrder α]

/-- A node in a group is where the group is, moved by its position. -/
theorem Sound.absolutePosition?_of_parent (sound : board.Sound)
    {node : Node α} (member : node ∈ board.nodes) {parent : String}
    (below : node.parent = some parent) {origin : Point α}
    (placed : board.absolutePosition? parent = some origin) :
    board.absolutePosition? node.id = some (node.position.offset origin) := by
  have found : board.parent? node.id = some parent := (sound.parent?_id member).trans below
  obtain ⟨group, inside, -, rfl⟩ := sound.exists_group_of_parent? found
  obtain ⟨above, met⟩ := sound.exists_map_get?_ancestors group.id
  have alsoMet : (board.ancestors node.id).map board.get? = (group :: above).map some := by
    rw [sound.ancestors_of_parent?_eq_some found, List.map_cons, sound.get?_id inside, met,
      List.map_cons]
  rw [sound.absolutePosition?_id inside met, Option.some_inj] at placed
  rw [sound.absolutePosition?_id member alsoMet, List.foldl_cons, Point.foldl_offset, placed]

/-! ## Inside and below other nodes -/

section

variable {outer inner low high other : String}

theorem Overlaps.symm (overlaps : board.Overlaps outer inner) : board.Overlaps inner outer := by
  obtain ⟨area, rect, left, right, meets⟩ := overlaps
  exact ⟨rect, area, right, left, Rect.intersects_comm.mp meets⟩

/-- All of a node lies inside another one. -/
def Covers (board : Board α) (outer inner : String) : Prop :=
  ∃ area rect, board.absoluteRect? outer = some area ∧ board.absoluteRect? inner = some rect ∧
    area.Covers rect

theorem Covers.overlaps (covers : board.Covers outer inner)
    (overlaps : board.Overlaps inner other) : board.Overlaps outer other := by
  obtain ⟨area, rect, around, inside, covers⟩ := covers
  obtain ⟨same, third, again, found, meets⟩ := overlaps
  rw [inside, Option.some_inj] at again
  exact ⟨area, third, around, found, covers.intersects (again ▸ meets)⟩

/-- All of a node lies below another one. -/
def Under (board : Board α) (low high : String) : Prop :=
  ∃ rect area, board.absoluteRect? low = some rect ∧ board.absoluteRect? high = some area ∧
    rect.Below area

theorem Under.not_overlaps (under : board.Under low high) : ¬ board.Overlaps high low := by
  obtain ⟨rect, area, below, above, apart⟩ := under
  rw [overlaps_iff_intersects above below]
  exact apart.not_intersects

end

variable [IsStrictOrderedRing α]

/-- Cards and phantoms take up some area. -/
theorem Sound.overlaps_self (sound : board.Sound) {node : Node α} (member : node ∈ board.nodes)
    (single : node.isGroup = false) : board.Overlaps node.id node.id := by
  obtain ⟨origin, placed⟩ := sound.exists_absolutePosition? member
  have place := sound.absoluteRect?_id member placed
  obtain ⟨width, height⟩ := Node.size_of_single single
  have wide : origin.x < origin.x + node.width :=
    lt_add_of_pos_right _ (width ▸ Nat.cast_pos.mpr (by decide))
  have high : origin.y < origin.y + node.height :=
    lt_add_of_pos_right _ (height ▸ Nat.cast_pos.mpr (by decide))
  exact (overlaps_iff_intersects place place).mpr
    (Rect.intersects_iff.mpr ⟨wide, wide, high, high⟩)

theorem Sound.covers_of_parent (sound : board.Sound) {group node : Node α}
    (inside : group ∈ board.nodes) (member : node ∈ board.nodes)
    (below : node.parent = some group.id)
    (across : 0 ≤ node.position.x ∧ node.position.x + node.width ≤ group.width)
    (down : 0 ≤ node.position.y ∧ node.position.y + node.height ≤ group.height) :
    board.Covers group.id node.id := by
  obtain ⟨origin, placed⟩ := sound.exists_absolutePosition? inside
  have moved := sound.absolutePosition?_of_parent member below placed
  exact ⟨_, _, sound.absoluteRect?_id inside placed, sound.absoluteRect?_id member moved,
    Rect.covers_offset across down⟩

end DeckBuilder.Board
