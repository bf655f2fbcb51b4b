import DeckBuilder.Board.Basic
import DeckBuilder.Proofs.Lists
import Mathlib.Data.List.Nodup
import Mathlib.Data.List.Perm.Subperm
import Mathlib.Data.Nat.Find
import Mathlib.Logic.Relation
import Mathlib.Order.WellFounded

/-! # Parent pointers

The pointers between nodes as a relation on IDs, and the walks of a board along them. A board whose
index is current and whose IDs are distinct finds exactly its nodes, its parent look-up is the
pointer relation, and the bound on its walks loses nothing: an ancestor at any distance is met
within as many steps as the board has nodes.
-/

namespace DeckBuilder

variable {α : Type}

namespace Node

/-- The node with one ID points at the other as its parent. -/
def Points (nodes : List (Node α)) (id parent : String) : Prop :=
  ∃ node ∈ nodes, node.id = id ∧ node.parent = some parent

theorem Points.mono {nodes larger : List (Node α)} (subset : nodes ⊆ larger) {id parent : String}
    (points : Points nodes id parent) : Points larger id parent := by
  obtain ⟨node, member, named, above⟩ := points
  exact ⟨node, subset member, named, above⟩

theorem points_eq_of_perm {first second : List (Node α)} (perm : first.Perm second) :
    Points first = Points second := by
  funext id parent
  exact propext ⟨Points.mono perm.subset, Points.mono perm.symm.subset⟩

theorem Points.mem_ids {nodes : List (Node α)} {id parent : String}
    (points : Points nodes id parent) : id ∈ nodes.map (·.id) := by
  obtain ⟨node, member, rfl, -⟩ := points
  exact List.mem_map_of_mem member

/-- Among nodes with distinct IDs a node is told by its ID. -/
theorem eq_of_id_eq {nodes : List (Node α)} (distinct : (nodes.map (·.id)).Nodup)
    {first second : Node α} (left : first ∈ nodes) (right : second ∈ nodes)
    (same : first.id = second.id) : first = second :=
  List.inj_on_of_nodup_map distinct left right same

theorem points_rightUnique {nodes : List (Node α)} (distinct : (nodes.map (·.id)).Nodup) :
    Relator.RightUnique (Points nodes) := by
  rintro id first second ⟨node, member, rfl, points⟩ ⟨other, otherMember, named, otherPoints⟩
  rw [eq_of_id_eq distinct otherMember member named, points] at otherPoints
  exact Option.some.inj otherPoints

end Node

namespace Board

/-- The index is that of the nodes, and no ID is repeated. -/
structure Keyed (board : Board α) : Prop where
  index_eq : board.index = Node.places board.nodes
  distinct : (board.nodes.map (·.id)).Nodup

theorem keyed_indexed {nodes : List (Node α)} (distinct : (nodes.map (·.id)).Nodup) :
    (indexed nodes).Keyed :=
  ⟨rfl, distinct⟩

theorem mem_places {nodes : List (Node α)} {id : String} {place : Nat} :
    (id, place) ∈ Node.places nodes ↔ ∃ node, nodes[place]? = some node ∧ node.id = id := by
  simp only [Node.places, List.mem_map, Prod.mk.injEq, Prod.exists,
    List.mk_mem_zipIdx_iff_getElem?]
  constructor
  · intro entry
    obtain ⟨node, _, found, named, rfl⟩ := entry
    exact ⟨node, found, named⟩
  · intro entry
    obtain ⟨node, found, named⟩ := entry
    exact ⟨node, place, found, named, rfl⟩

theorem places_eq_zipIdx (nodes : List (Node α)) :
    Node.places nodes = (nodes.map (·.id)).zipIdx := by
  rw [List.zipIdx_map]
  rfl

namespace Keyed

variable {board : Board α} (keyed : board.Keyed)

include keyed

theorem indexed_nodes : indexed board.nodes = board := by
  cases board
  exact congrArg (Board.mk _) keyed.index_eq.symm

/-- A board finds exactly its nodes. -/
theorem get?_eq_some_iff {id : String} {node : Node α} :
    board.get? id = some node ↔ node ∈ board.nodes ∧ node.id = id := by
  have distinct : ((Node.places board.nodes).reverse.map Prod.fst).Nodup := by
    rw [List.map_reverse, List.nodup_reverse, places_eq_zipIdx, List.zipIdx_map_fst]
    exact keyed.distinct
  simp only [get?, keyed.index_eq, Option.bind_eq_some_iff,
    Lists.lookup_eq_some_iff_mem distinct, List.mem_reverse, mem_places]
  constructor
  · intro found
    obtain ⟨place, ⟨found, at_place, named⟩, present⟩ := found
    rw [at_place] at present
    cases present
    exact ⟨List.mem_of_getElem? at_place, named⟩
  · intro listed
    obtain ⟨member, named⟩ := listed
    obtain ⟨place, at_place⟩ := List.mem_iff_getElem?.mp member
    exact ⟨place, ⟨node, at_place, named⟩, at_place⟩

theorem parent?_eq_some_iff {id parent : String} :
    board.parent? id = some parent ↔ Node.Points board.nodes id parent := by
  simp only [parent?, Option.bind_eq_some_iff, keyed.get?_eq_some_iff, Node.Points, and_assoc]

end Keyed

/-! ## Walks -/

/-- The ID that is a number of steps above another. -/
def above (board : Board α) : Nat → String → Option String
  | 0, id => some id
  | steps + 1, id => (board.parent? id).bind (above board steps)

theorem above_add (board : Board α) (first second : Nat) (id : String) :
    board.above (first + second) id = (board.above first id).bind (board.above second) := by
  induction first generalizing id with
  | zero => simp [above]
  | succ first ih =>
    rw [Nat.succ_add, above, above, Option.bind_assoc]
    congr 1
    funext parent
    exact ih parent

/-- A walk of some length passes through a node with a parent at each earlier step. -/
theorem parent?_isSome_of_above {board : Board α} {steps earlier : Nat} {id top : String}
    (reached : board.above steps id = some top) (before : earlier < steps) :
    ∃ passed parent, board.above earlier id = some passed ∧ board.parent? passed = some parent := by
  obtain ⟨rest, rfl⟩ : ∃ rest, steps = earlier + (rest + 1) := ⟨steps - earlier - 1, by omega⟩
  rw [above_add, Option.bind_eq_some_iff] at reached
  obtain ⟨passed, here, onwards⟩ := reached
  rw [above, Option.bind_eq_some_iff] at onwards
  obtain ⟨parent, found, -⟩ := onwards
  exact ⟨passed, parent, here, found⟩

/-- A bounded climb meets what is above within the bound. -/
theorem mem_climb {board : Board α} {bound : Nat} {id ancestor : String} :
    ancestor ∈ board.climb bound id ↔
      ∃ steps < bound, board.above (steps + 1) id = some ancestor := by
  induction bound generalizing id with
  | zero => simp [climb]
  | succ bound ih =>
    cases parent : board.parent? id with
    | none => simp [climb, above, parent]
    | some next =>
      simp only [climb, above, parent, List.mem_cons, ih, Option.bind_some]
      constructor
      · rintro (rfl | ⟨steps, below, reached⟩)
        · exact ⟨0, by omega, rfl⟩
        · exact ⟨steps + 1, by omega, reached⟩
      · intro reached
        obtain ⟨steps, below, reached⟩ := reached
        cases steps with
        | zero => exact .inl (Option.some.inj reached).symm
        | succ steps => exact .inr ⟨steps, by omega, reached⟩

namespace Keyed

variable {board : Board α} (keyed : board.Keyed)

include keyed

theorem transGen_iff_above {id ancestor : String} :
    Relation.TransGen (Node.Points board.nodes) id ancestor ↔
      ∃ steps, board.above (steps + 1) id = some ancestor := by
  constructor
  · intro path
    induction path using Relation.TransGen.head_induction_on with
    | single step =>
      exact ⟨0, by simp [above, keyed.parent?_eq_some_iff.mpr step]⟩
    | head step _ ih =>
      obtain ⟨steps, reached⟩ := ih
      exact ⟨steps + 1, by rw [above, keyed.parent?_eq_some_iff.mpr step]; exact reached⟩
  · intro reachable
    obtain ⟨steps, reached⟩ := reachable
    induction steps generalizing id with
    | zero =>
      rw [above, Option.bind_eq_some_iff] at reached
      obtain ⟨parent, found, here⟩ := reached
      cases here
      exact .single (keyed.parent?_eq_some_iff.mp found)
    | succ steps ih =>
      rw [above, Option.bind_eq_some_iff] at reached
      obtain ⟨parent, found, onwards⟩ := reached
      exact .head (keyed.parent?_eq_some_iff.mp found) (ih onwards)

/-- A walk that passes through different nodes is no longer than the board. -/
theorem steps_le_of_injective {steps : Nat} {id top : String}
    (reached : board.above steps id = some top)
    (apart : ∀ i j, i < j → j < steps → board.above i id ≠ board.above j id) :
    steps ≤ board.nodes.length := by
  have distinct : ((List.range steps).map fun step => board.above step id).Nodup := by
    refine List.Nodup.map_on ?_ List.nodup_range
    intro i inner j outer same
    rw [List.mem_range] at inner outer
    rcases Nat.lt_trichotomy i j with less | equal | greater
    · exact (apart i j less outer same).elim
    · exact equal
    · exact (apart j i greater inner same.symm).elim
  have passed : ((List.range steps).map fun step => board.above step id) ⊆
      board.nodes.map fun node => some node.id := by
    intro met member
    obtain ⟨step, below, rfl⟩ := List.mem_map.mp member
    obtain ⟨source, parent, here, found⟩ :=
      parent?_isSome_of_above reached (List.mem_range.mp below)
    obtain ⟨node, present, named, -⟩ := keyed.parent?_eq_some_iff.mp found
    exact List.mem_map.mpr ⟨node, present, by rw [here, named]⟩
  simpa using (distinct.subperm passed).length_le

/-- The bound on climbs loses no ancestor. -/
theorem mem_ancestors_iff {id ancestor : String} :
    ancestor ∈ board.ancestors id ↔
      Relation.TransGen (Node.Points board.nodes) id ancestor := by
  rw [ancestors, mem_climb, keyed.transGen_iff_above]
  constructor
  · intro met
    obtain ⟨steps, -, reached⟩ := met
    exact ⟨steps, reached⟩
  · intro reachable
    -- The first time the ancestor is met, no node has been passed twice: between two passes of
    -- a node the walk could be cut short.
    classical
    refine ⟨Nat.find reachable, ?_, Nat.find_spec reachable⟩
    have reached := Nat.find_spec reachable
    have least : ∀ steps, board.above (steps + 1) id = some ancestor →
        Nat.find reachable ≤ steps := fun steps met => Nat.find_min' reachable met
    apply keyed.steps_le_of_injective reached
    intro i j before inside same
    have shorter : board.above (i + (Nat.find reachable + 1 - j)) id = some ancestor := by
      rw [above_add, same, ← above_add, show j + (Nat.find reachable + 1 - j) =
        Nat.find reachable + 1 by omega]
      exact reached
    have met := least (i + (Nat.find reachable + 1 - j) - 1) (by
      rw [show i + (Nat.find reachable + 1 - j) - 1 + 1 = i + (Nat.find reachable + 1 - j) by
        omega]
      exact shorter)
    omega

theorem isDescendant_iff {id ancestor : String} :
    board.isDescendant id ancestor = true ↔
      Relation.TransGen (Node.Points board.nodes) id ancestor := by
  unfold isDescendant
  rw [List.contains_iff_mem, keyed.mem_ancestors_iff]

/-- Without cycles no walk is longer than the board. -/
theorem above_eq_none (acyclic : ∀ id, ¬ Relation.TransGen (Node.Points board.nodes) id id)
    (id : String) : board.above (board.nodes.length + 1) id = none := by
  cases reached : board.above (board.nodes.length + 1) id with
  | none => rfl
  | some top =>
    have short := keyed.steps_le_of_injective reached (by
      intro i j before inside same
      obtain ⟨passed, -, here, -⟩ := parent?_isSome_of_above reached (Nat.lt_trans before inside)
      refine acyclic passed (keyed.transGen_iff_above.mpr ⟨j - i - 1, ?_⟩)
      rw [show j - i - 1 + 1 = j - i by omega]
      have there := board.above_add i (j - i) id
      rw [show i + (j - i) = j by omega, ← same, here] at there
      exact there.symm)
    omega

end Keyed

end Board

namespace Node

/-- Following pointers ends exactly when no ID is above itself. -/
theorem wellFounded_points_iff {nodes : List (Node α)} (distinct : (nodes.map (·.id)).Nodup) :
    (WellFounded fun parent id => Points nodes id parent) ↔
      ∀ id, ¬ Relation.TransGen (Points nodes) id id := by
  constructor
  · intro ends id cycle
    exact ends.transGen.irrefl.irrefl id (Relation.transGen_swap.mpr cycle)
  · intro acyclic
    have keyed := Board.keyed_indexed distinct
    have bounded : ∀ steps id, (Board.indexed nodes).above steps id = none →
        Acc (fun parent id => Points nodes id parent) id := by
      intro steps
      induction steps with
      | zero => intro id ended; cases ended
      | succ steps ih =>
        intro id ended
        refine ⟨id, fun parent points => ih parent ?_⟩
        rw [Board.above, keyed.parent?_eq_some_iff.mpr points] at ended
        exact ended
    exact ⟨fun id => bounded _ id (keyed.above_eq_none acyclic id)⟩

end Node

end DeckBuilder
