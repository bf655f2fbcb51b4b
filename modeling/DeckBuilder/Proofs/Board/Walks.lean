import DeckBuilder.Proofs.Board.Repair

/-! # Walks upwards

A sound board is one that has nothing to repair and whose index is current. Following parents from
any of its nodes comes to an end without a bound, and the bounded walks of a board are these walks:
the nodes above a parent are the nodes above its child but for the parent itself, so depth grows
with every step down.
-/

namespace DeckBuilder

variable {α : Type}

namespace Board

/-- Following parents from a node, for as long as there are any, meets the given nodes and then
comes to an end. -/
inductive Climbs (board : Board α) : String → List String → Prop where
  | top {id : String} (free : board.parent? id = none) : Climbs board id []
  | step {id parent : String} {rest : List String} (found : board.parent? id = some parent)
      (onwards : Climbs board parent rest) : Climbs board id (parent :: rest)

section

variable {board : Board α}

/-- A bounded climb that has come to an end is a whole one. -/
theorem climbs_climb {bound : Nat} {id : String} (ended : board.above (bound + 1) id = none) :
    board.Climbs id (board.climb bound id) := by
  induction bound generalizing id with
  | zero =>
    cases parent : board.parent? id with
    | none => exact .top parent
    | some next => simp [above, parent] at ended
  | succ bound ih =>
    cases parent : board.parent? id with
    | none =>
      rw [climb, parent]
      exact .top parent
    | some next =>
      rw [above, parent, Option.bind_some] at ended
      rw [climb, parent]
      exact .step parent (ih ended)

theorem Climbs.unique {id : String} {first second : List String} (left : board.Climbs id first)
    (right : board.Climbs id second) : first = second := by
  induction left generalizing second with
  | top free =>
    cases right with
    | top => rfl
    | step found => simp [free] at found
  | step found onwards ih =>
    cases right with
    | top free => simp [free] at found
    | step alsoFound alsoOnwards =>
      rw [found, Option.some_inj] at alsoFound
      subst alsoFound
      rw [ih alsoOnwards]

/-- A walk that meets the same parents on another board is a walk there. -/
theorem Climbs.congr {other : Board α} {id : String} {chain : List String}
    (walk : board.Climbs id chain)
    (same : ∀ met ∈ id :: chain, other.parent? met = board.parent? met) :
    other.Climbs id chain := by
  induction walk with
  | top free => exact .top ((same _ List.mem_cons_self).trans free)
  | step found onwards ih =>
    obtain ⟨here, higher⟩ := List.forall_mem_cons.mp same
    exact .step (here.trans found) (ih higher)

end

/-- Nothing is left to repair, and the index is that of the nodes. -/
structure Sound (board : Board α) : Prop where
  index_eq : board.index = Node.places board.nodes
  repaired : Node.Repaired board.nodes

theorem sound_ofNodes (nodes : List (Node α)) : (ofNodes nodes).Sound :=
  ⟨(keyed_ofNodes nodes).index_eq, repaired_ofNodes nodes⟩

namespace Sound

variable {board : Board α} (sound : board.Sound)

include sound

theorem keyed : board.Keyed :=
  ⟨sound.index_eq, sound.repaired.distinct⟩

theorem acyclic (id : String) : ¬ Relation.TransGen (Node.Points board.nodes) id id :=
  (Node.wellFounded_points_iff sound.repaired.distinct).mp sound.repaired.ends id

/-- The look-up by index is a search through the nodes. -/
theorem get?_eq_find? (id : String) : board.get? id = board.nodes.find? (·.id == id) := by
  cases found : board.nodes.find? (·.id == id) with
  | none =>
    cases indexed : board.get? id with
    | none => rfl
    | some node =>
      obtain ⟨member, named⟩ := sound.keyed.get?_eq_some_iff.mp indexed
      simpa [named] using List.find?_eq_none.mp found node member
  | some node =>
    have named : node.id = id := by simpa using List.find?_some found
    exact sound.keyed.get?_eq_some_iff.mpr ⟨List.mem_of_find?_eq_some found, named⟩

theorem get?_id {node : Node α} (member : node ∈ board.nodes) : board.get? node.id = some node :=
  sound.keyed.get?_eq_some_iff.mpr ⟨member, rfl⟩

theorem parent?_id {node : Node α} (member : node ∈ board.nodes) :
    board.parent? node.id = node.parent := by
  rw [parent?, sound.get?_id member, Option.bind_some]

/-- The parent of a node is a group of the board. -/
theorem exists_group_of_parent? {id parent : String} (found : board.parent? id = some parent) :
    ∃ group ∈ board.nodes, group.isGroup ∧ group.id = parent := by
  obtain ⟨node, member, -, points⟩ := sound.keyed.parent?_eq_some_iff.mp found
  exact (sound.repaired.parents node member parent points).2

/-! ## The nodes above a node -/

/-- The walk upwards comes to an end, and its bound cuts nothing off. -/
theorem climbs_ancestors (id : String) : board.Climbs id (board.ancestors id) :=
  climbs_climb (sound.keyed.above_eq_none sound.acyclic id)

theorem ancestors_of_parent?_eq_none {id : String} (free : board.parent? id = none) :
    board.ancestors id = [] :=
  (sound.climbs_ancestors id).unique (.top free)

theorem ancestors_of_parent?_eq_some {id parent : String} (found : board.parent? id = some parent) :
    board.ancestors id = parent :: board.ancestors parent :=
  (sound.climbs_ancestors id).unique (.step found (sound.climbs_ancestors parent))

/-- Whatever is above a node has above it what comes after it on the way up. -/
theorem exists_ancestors_eq_append {id ancestor : String} (above : ancestor ∈ board.ancestors id) :
    ∃ between, board.ancestors id = between ++ ancestor :: board.ancestors ancestor := by
  have walk := sound.climbs_ancestors id
  generalize board.ancestors id = chain at walk above
  induction walk with
  | top => cases above
  | @step id parent rest found onwards ih =>
    rcases List.mem_cons.mp above with rfl | higher
    · exact ⟨[], by rw [onwards.unique (sound.climbs_ancestors ancestor), List.nil_append]⟩
    · obtain ⟨between, split⟩ := ih higher
      exact ⟨parent :: between, by rw [split, List.cons_append]⟩

/-- All nodes above a node are found on the board. -/
theorem exists_map_get?_ancestors (id : String) :
    ∃ above : List (Node α), (board.ancestors id).map board.get? = above.map some := by
  have walk := sound.climbs_ancestors id
  generalize board.ancestors id = chain at walk
  induction walk with
  | top => exact ⟨[], rfl⟩
  | step found onwards ih =>
    obtain ⟨above, rest⟩ := ih
    obtain ⟨group, member, -, rfl⟩ := sound.exists_group_of_parent? found
    exact ⟨group :: above, by rw [List.map_cons, sound.get?_id member, rest, List.map_cons]⟩

/-- All nodes above a node are groups. -/
theorem exists_group_of_mem_ancestors {id ancestor : String}
    (above : ancestor ∈ board.ancestors id) :
    ∃ group ∈ board.nodes, group.isGroup ∧ group.id = ancestor := by
  have walk := sound.climbs_ancestors id
  generalize board.ancestors id = chain at walk above
  induction walk with
  | top => cases above
  | step found onwards ih =>
    rcases List.mem_cons.mp above with rfl | higher
    · exact sound.exists_group_of_parent? found
    · exact ih higher

theorem isDescendant_self (id : String) : board.isDescendant id id = false :=
  Bool.eq_false_iff.mpr fun above => sound.acyclic id (sound.keyed.isDescendant_iff.mp above)

theorem isDescendant_trans {low middle high : String} (first : board.isDescendant low middle)
    (second : board.isDescendant middle high) : board.isDescendant low high :=
  sound.keyed.isDescendant_iff.mpr <|
    (sound.keyed.isDescendant_iff.mp first).trans (sound.keyed.isDescendant_iff.mp second)

/-- A node lies deeper than all nodes above it. -/
theorem depth_lt_of_isDescendant {id ancestor : String} (above : board.isDescendant id ancestor) :
    board.depth ancestor < board.depth id := by
  obtain ⟨between, split⟩ :=
    sound.exists_ancestors_eq_append (List.contains_iff_mem.mp above)
  rw [depth, depth, split, List.length_append, List.length_cons]
  omega

/-- The absolute position of a node is the sum of the positions met on the whole walk upwards. -/
theorem absolutePosition?_id [Coordinate α] {node : Node α} (member : node ∈ board.nodes)
    {above : List (Node α)} (met : (board.ancestors node.id).map board.get? = above.map some) :
    board.absolutePosition? node.id =
      some (above.foldl (fun point group => point.offset group.position) node.position) := by
  have found : (board.ancestors node.id).filterMap board.get? = above := by
    have listed := congrArg (List.filterMap id) met
    simpa [List.filterMap_map] using listed
  rw [absolutePosition?, sound.get?_id member, Option.map_some, found]

end Sound

end Board

end DeckBuilder
