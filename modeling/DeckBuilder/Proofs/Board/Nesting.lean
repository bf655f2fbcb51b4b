import DeckBuilder.Board.Repair
import DeckBuilder.Proofs.Board.Pointers
import DeckBuilder.Proofs.Sort.Codes

/-! # Nesting order

Sorting by nesting is stable, so the result depends on the order of a board only as far as nodes of
the same rank are concerned; and the rank of a node does not depend on the order at all.
-/

namespace DeckBuilder.Board

variable {α : Type}

/-- Boards with the same nodes look the same from every ID. -/
theorem get?_eq_of_perm {first second : Board α} (left : first.Keyed) (right : second.Keyed)
    (perm : first.nodes.Perm second.nodes) (id : String) : first.get? id = second.get? id := by
  ext node
  rw [left.get?_eq_some_iff, right.get?_eq_some_iff, perm.mem_iff]

theorem climb_eq_of_perm {first second : Board α} (left : first.Keyed) (right : second.Keyed)
    (perm : first.nodes.Perm second.nodes) (bound : Nat) (id : String) :
    first.climb bound id = second.climb bound id := by
  induction bound generalizing id with
  | zero => rfl
  | succ bound ih => simp only [climb, parent?, get?_eq_of_perm left right perm, ih]

theorem depth_eq_of_perm {first second : Board α} (left : first.Keyed) (right : second.Keyed)
    (perm : first.nodes.Perm second.nodes) : first.depth = second.depth := by
  funext id
  rw [depth, depth, ancestors, ancestors, perm.length_eq, climb_eq_of_perm left right perm]

theorem nestingCode_eq_of_perm {first second : Board α} (left : first.Keyed)
    (right : second.Keyed) (perm : first.nodes.Perm second.nodes) (node : Node α) :
    first.nestingCode node = second.nestingCode node := by
  rw [nestingCode, nestingCode, depth_eq_of_perm left right perm]

section

variable (board : Board α)

theorem nodes_sortByNesting :
    board.sortByNesting.nodes = board.nodes.mergeSort (OrderCode.notAfter board.nestingCode) :=
  rfl

theorem sortByNesting_perm : board.sortByNesting.nodes.Perm board.nodes :=
  List.mergeSort_perm _ _

end

/-- Sorting tells boards with the same nodes apart only by the order within the ranks. -/
theorem sortByNesting_eq_of_filter {first second : Board α} (left : first.Keyed)
    (right : second.Keyed) (perm : first.nodes.Perm second.nodes)
    (same : ∀ code, first.nodes.filter (first.nestingCode · == code) =
      second.nodes.filter (first.nestingCode · == code)) :
    first.sortByNesting.nodes = second.sortByNesting.nodes := by
  have rank : first.nestingCode = second.nestingCode :=
    funext (nestingCode_eq_of_perm left right perm)
  rw [nodes_sortByNesting, nodes_sortByNesting, ← rank]
  exact OrderCode.mergeSort_congr same

end DeckBuilder.Board
