import DeckBuilder.Board.Drop
import DeckBuilder.Proofs.Board.Walks

/-! # Drops

What a drop does to a node is told by the groups that it overlaps: it stays with its parent exactly
when it overlaps it, stays free exactly when it overlaps no group, and otherwise gets into a group
that it overlaps or becomes free.
-/

namespace DeckBuilder

theorem DropOutcome.ofParents_eq_unchanged_iff {source target : Option String} :
    ofParents source target = unchanged ↔ source = target := by
  cases source with
  | none => cases target <;> simp [ofParents]
  | some source =>
    cases target with
    | none => simp [ofParents]
    | some target => by_cases same : source = target <;> simp [ofParents, same]

namespace Board

variable {α : Type} [Coordinate α] {board : Board α}

section

omit [Coordinate α]

theorem deepest?_eq_none_iff {groups : List (Node α)} :
    board.deepest? groups = none ↔ groups = [] := by
  cases groups <;> simp [deepest?]

/-- The deepest of some nodes is the first of those with the most nodes above them. -/
theorem firstHighest_of_deepest? {groups : List (Node α)} {group : Node α}
    (found : board.deepest? groups = some group) :
    Lists.FirstHighest (fun other => board.depth other.id) groups group := by
  cases groups with
  | nil => cases found
  | cons first rest =>
    rw [deepest?, Option.some_inj] at found
    subst found
    exact Lists.firstHighest_foldl (fun other => board.depth other.id) rest first

theorem mem_of_deepest? {groups : List (Node α)} {group : Node α}
    (found : board.deepest? groups = some group) : group ∈ groups :=
  (firstHighest_of_deepest? found).mem

end

theorem mem_groupsOver {rect : Rect α} {group : Node α} :
    group ∈ board.groupsOver rect ↔ group ∈ board.nodes ∧ group.isGroup ∧
      ∃ area, board.absoluteRect? group.id = some area ∧ area.intersects rect := by
  rw [groupsOver, List.mem_filter, Bool.and_eq_true, Option.any_eq_true]

/-- The node overlaps its parent. -/
def TouchesParent (node : Node α) (touched : List (Node α)) : Prop :=
  ∃ group ∈ touched, some group.id = node.parent

section

variable {node : Node α} {touched : List (Node α)}

omit [Coordinate α]

theorem any_parent_eq_true_iff :
    (touched.any fun group => some group.id == node.parent) = true ↔
      TouchesParent node touched := by
  simp only [List.any_eq_true, beq_iff_eq, TouchesParent]

theorem dropTarget_eq_parent (touches : TouchesParent node touched) :
    board.dropTarget node touched = node.parent :=
  if_pos (any_parent_eq_true_iff.mpr touches)

theorem dropTarget_eq_deepest? (astray : ¬ TouchesParent node touched) :
    board.dropTarget node touched = (board.deepest? touched).map (·.id) :=
  if_neg (mt any_parent_eq_true_iff.mp astray)

/-- The target of a drop is a group that is overlapped. -/
theorem exists_of_dropTarget {target : String}
    (found : board.dropTarget node touched = some target) :
    ∃ group ∈ touched, group.id = target := by
  by_cases touches : TouchesParent node touched
  · rw [dropTarget_eq_parent touches] at found
    obtain ⟨group, member, above⟩ := touches
    exact ⟨group, member, Option.some.inj (above.trans found)⟩
  · rw [dropTarget_eq_deepest? touches, Option.map_eq_some_iff] at found
    obtain ⟨group, deepest, named⟩ := found
    exact ⟨group, mem_of_deepest? deepest, named⟩

/-- The target of a drop is the parent that the node has when it overlaps this one, or when it has
none and overlaps nothing. -/
theorem parent_eq_dropTarget_iff :
    node.parent = board.dropTarget node touched ↔
      TouchesParent node touched ∨ node.parent = none ∧ touched = [] := by
  by_cases touches : TouchesParent node touched
  · simp [touches, dropTarget_eq_parent touches]
  · rw [dropTarget_eq_deepest? touches, ← deepest?_eq_none_iff]
    cases deepest : board.deepest? touched with
    | none => simp [touches]
    | some group =>
      simp only [Option.map_some, touches, reduceCtorEq, and_false, or_self, iff_false]
      exact fun above => touches ⟨group, mem_of_deepest? deepest, above.symm⟩

end

section

variable {id : String} {node : Node α} {rect : Rect α}

/-- The drop of a card or phantom that is where a rectangle says. -/
theorem drop_eq (found : board.get? id = some node) (place : board.absoluteRect? id = some rect)
    (single : node.isGroup = false) :
    board.drop id =
      let target := board.dropTarget node (board.groupsOver rect)
      if node.parent = target then (board, .unchanged)
      else ((board.reattach id rect.origin target).sortByNesting,
        .ofParents node.parent target) := by
  simp only [drop, found, place, single, Bool.false_eq_true, ↓reduceIte]
  split
  · rename_i unchanged
    rw [if_pos (DropOutcome.ofParents_eq_unchanged_iff.mp unchanged)]
  · rename_i outcome moved
    rw [if_neg (mt DropOutcome.ofParents_eq_unchanged_iff.mpr moved)]

/-- Exactly the nodes that overlap their parent, and those without parents that overlap nothing, are
settled. -/
theorem drop_eq_self_iff (found : board.get? id = some node)
    (place : board.absoluteRect? id = some rect) (single : node.isGroup = false) :
    board.drop id = (board, .unchanged) ↔ TouchesParent node (board.groupsOver rect) ∨
      node.parent = none ∧ board.groupsOver rect = [] := by
  rw [drop_eq found place single, ← parent_eq_dropTarget_iff]
  refine ⟨fun same => ?_, fun same => if_pos same⟩
  by_contra moved
  rw [if_neg moved] at same
  exact moved (DropOutcome.ofParents_eq_unchanged_iff.mp (congrArg Prod.snd same))

end

/-- A drop leaves the board as it is, or it puts a node that is no group into a group of the board
or among the free nodes, and sorts the board. -/
theorem drop_cases (board : Board α) (id : String) :
    board.drop id = (board, .unchanged) ∨
      ∃ node rect target, board.get? id = some node ∧ board.absoluteRect? id = some rect ∧
        node.isGroup = false ∧
        (∀ parent, target = some parent →
          ∃ group ∈ board.nodes, group.isGroup ∧ group.id = parent) ∧
        board.drop id = ((board.reattach id rect.origin target).sortByNesting,
          .ofParents node.parent target) := by
  cases found : board.get? id with
  | none => exact .inl (by simp only [drop, found])
  | some node =>
    cases place : board.absoluteRect? id with
    | none => exact .inl (by simp only [drop, found, place])
    | some rect =>
      cases single : node.isGroup with
      | true => exact .inl (by simp only [drop, found, place, single, ↓reduceIte])
      | false =>
        by_cases settled : node.parent = board.dropTarget node (board.groupsOver rect)
        · exact .inl ((drop_eq found place single).trans (if_pos settled))
        · refine .inr ⟨node, rect, _, rfl, rfl, single, fun parent chosen => ?_,
            (drop_eq found place single).trans (if_neg settled)⟩
          obtain ⟨group, touched, named⟩ := exists_of_dropTarget chosen
          obtain ⟨member, isGroup, -⟩ := mem_groupsOver.mp touched
          exact ⟨group, member, isGroup, named⟩

end Board

end DeckBuilder
