import DeckBuilder.Proofs.Board.Nesting
import DeckBuilder.Proofs.Board.Walks

/-! # Layers of a sorted board

Sorting by nesting puts the nodes of a board in four layers: free groups, other free nodes, nested
groups and other nested nodes, the nested ones from the top down. Whatever is above a node is a
group of smaller depth, so it comes before the node.
-/

namespace DeckBuilder

variable {α : Type}

/-- Free groups come first, then other free nodes, then nested groups and other nested nodes, both
from the top down. -/
def Node.Layered (depth : Node α → Nat) (nodes : List (Node α)) : Prop :=
  ∃ freeGroups freeOthers nestedGroups nestedOthers : List (Node α),
    nodes = freeGroups ++ freeOthers ++ (nestedGroups ++ nestedOthers) ∧
      (∀ node ∈ freeGroups, node.parent = none ∧ node.isGroup) ∧
      (∀ node ∈ freeOthers, node.parent = none ∧ ¬ node.isGroup) ∧
      (∀ node ∈ nestedGroups, node.parent ≠ none ∧ node.isGroup) ∧
      (∀ node ∈ nestedOthers, node.parent ≠ none ∧ ¬ node.isGroup) ∧
      nestedGroups.Pairwise (depth · ≤ depth ·) ∧ nestedOthers.Pairwise (depth · ≤ depth ·)

namespace Board

variable {board : Board α} {first second : Node α}

theorem before_nestingCode_iff :
    OrderCode.Before (board.nestingCode first) (board.nestingCode second) ↔
      first.parent.isSome.toNat < second.parent.isSome.toNat ∨
        first.parent.isSome.toNat = second.parent.isSome.toNat ∧
          ((!first.isGroup).toNat < (!second.isGroup).toNat ∨
            (!first.isGroup).toNat = (!second.isGroup).toNat ∧
              board.depth first.id < board.depth second.id) := by
  simp only [nestingCode, OrderCode.before_cons_cons, OrderCode.not_before_nil, and_false, or_false]

section

variable (ordered : OrderCode.notAfter board.nestingCode first second)

include ordered

theorem isNone_of_notAfter (free : second.parent.isNone) : first.parent.isNone := by
  rw [OrderCode.notAfter_iff_not_before, before_nestingCode_iff] at ordered
  cases above : first.parent <;> simp_all

theorem isGroup_of_notAfter (sameRank : first.parent.isSome = second.parent.isSome)
    (isGroup : second.isGroup) : first.isGroup := by
  rw [OrderCode.notAfter_iff_not_before, before_nestingCode_iff] at ordered
  cases single : first.isGroup <;> simp_all

theorem depth_le_of_notAfter (sameRank : first.parent.isSome = second.parent.isSome)
    (sameKind : first.isGroup = second.isGroup) : board.depth first.id ≤ board.depth second.id := by
  rw [OrderCode.notAfter_iff_not_before, before_nestingCode_iff] at ordered
  simp_all

end

theorem layered_sortByNesting (board : Board α) :
    Node.Layered (fun node => board.depth node.id) board.sortByNesting.nodes := by
  have ordered := OrderCode.pairwise_mergeSort board.nestingCode board.nodes
  rw [← nodes_sortByNesting] at ordered
  generalize board.sortByNesting.nodes = nodes at ordered ⊢
  let free := nodes.filter (·.parent.isNone)
  let nested := nodes.filter (!·.parent.isNone)
  have isFree : ∀ node ∈ free, node.parent.isSome = false := fun node member => by
    simpa using (List.mem_filter.mp member).2
  have isNested : ∀ node ∈ nested, node.parent.isSome = true := fun node member => by
    simpa using (List.mem_filter.mp member).2
  -- Within a rank groups come first, and within a kind of nested nodes shallow ones do.
  have kinds {rank : List (Node α)} (sublist : rank.Sublist nodes) {above : Bool}
      (same : ∀ node ∈ rank, node.parent.isSome = above) :
      rank.filter (·.isGroup) ++ rank.filter (!·.isGroup) = rank :=
    Lists.filter_append_filter_not <| (ordered.sublist sublist).imp_of_mem
      fun left right before => isGroup_of_notAfter before ((same _ left).trans (same _ right).symm)
  have deepens (kind : Bool) {layer : List (Node α)} (sublist : layer.Sublist nested)
      (same : ∀ node ∈ layer, node.isGroup = kind) :
      layer.Pairwise fun first second => board.depth first.id ≤ board.depth second.id :=
    (ordered.sublist (sublist.trans List.filter_sublist)).imp_of_mem
      fun left right before => depth_le_of_notAfter before
        ((isNested _ (sublist.subset left)).trans (isNested _ (sublist.subset right)).symm)
        ((same _ left).trans (same _ right).symm)
  refine ⟨free.filter (·.isGroup), free.filter (!·.isGroup), nested.filter (·.isGroup),
    nested.filter (!·.isGroup), ?_, ?_, ?_, ?_, ?_, deepens true List.filter_sublist ?_,
    deepens false List.filter_sublist ?_⟩
  · rw [kinds List.filter_sublist isFree, kinds List.filter_sublist isNested]
    exact (Lists.filter_append_filter_not (ordered.imp isNone_of_notAfter)).symm
  all_goals
    intro node member
    obtain ⟨inRank, kind⟩ := List.mem_filter.mp member
  · exact ⟨by simpa using isFree node inRank, kind⟩
  · exact ⟨by simpa using isFree node inRank, by simpa using kind⟩
  · exact ⟨Option.isSome_iff_ne_none.mp (isNested node inRank), kind⟩
  · exact ⟨Option.isSome_iff_ne_none.mp (isNested node inRank), by simpa using kind⟩
  · exact kind
  · simpa using kind

/-- Whatever is above a node has a lower rank. -/
theorem Sound.before_of_isDescendant (sound : board.Sound) (left : first ∈ board.nodes)
    (right : second ∈ board.nodes) (above : board.isDescendant second.id first.id) :
    OrderCode.Before (board.nestingCode first) (board.nestingCode second) := by
  have deeper := sound.depth_lt_of_isDescendant above
  have path := sound.keyed.isDescendant_iff.mp above
  obtain ⟨parent, points, -⟩ := Relation.TransGen.head'_iff.mp path
  have nested : second.parent = some parent := by
    rw [← sound.parent?_id right]
    exact sound.keyed.parent?_eq_some_iff.mpr points
  obtain ⟨group, isNode, isGroup, named⟩ :=
    sound.exists_group_of_mem_ancestors (sound.keyed.mem_ancestors_iff.mpr path)
  rw [Node.eq_of_id_eq sound.repaired.distinct isNode left named] at isGroup
  rw [before_nestingCode_iff, nested, isGroup]
  cases first.parent <;> cases second.isGroup <;> simp [deeper]

/-- **All nodes above a node come before it.** -/
theorem Sound.exists_earlier_of_transGen (sound : board.Sound) {before after : List (Node α)}
    {node : Node α} (split : board.sortByNesting.nodes = before ++ node :: after)
    {ancestor : String} (above : Relation.TransGen (Node.Points board.nodes) node.id ancestor) :
    ∃ group ∈ before, group.isGroup ∧ group.id = ancestor := by
  have ordered := OrderCode.pairwise_mergeSort board.nestingCode board.nodes
  have same := board.sortByNesting_perm
  rw [← nodes_sortByNesting, split] at ordered
  rw [split] at same
  obtain ⟨group, isNode, isGroup, rfl⟩ :=
    sound.exists_group_of_mem_ancestors (sound.keyed.mem_ancestors_iff.mpr above)
  have isAbove := sound.keyed.isDescendant_iff.mpr above
  rcases List.mem_append.mp (same.mem_iff.mpr isNode) with earlier | later
  · exact ⟨group, earlier, isGroup, rfl⟩
  · rcases List.mem_cons.mp later with rfl | later
    · rw [sound.isDescendant_self] at isAbove
      cases isAbove
    · have inOrder := (List.pairwise_cons.mp (List.pairwise_append.mp ordered).2.1).1 group later
      have isHere := same.mem_iff.mp (List.mem_append_right before List.mem_cons_self)
      exact absurd (sound.before_of_isDescendant isNode isHere isAbove)
        (OrderCode.notAfter_iff_not_before _ |>.mp inOrder)

end Board

end DeckBuilder
