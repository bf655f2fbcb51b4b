import DeckBuilder.Board.Repair
import DeckBuilder.Proofs.Board.Pointers

/-! # Breaking cycles

Every ID points at most once, so a cycle can be left nowhere and its members are the IDs above any
of them. Going through the nodes in board order and detaching each one that still sits above itself
therefore detaches the first node of every cycle, and no other node.
-/

namespace DeckBuilder

section Pointers

variable {points : String → String → Prop} {order : List String}

/-- The first ID of a cycle, in the order of a list. -/
def OpensCycle (points : String → String → Prop) (order : List String) (id : String) : Prop :=
  Relation.TransGen points id id ∧
    ∀ other ∈ order.takeWhile (· != id), ¬ Relation.TransGen points id other

/-- The pointers that are left when some IDs are detached. -/
def Without (points : String → String → Prop) (cuts : List String) (id parent : String) : Prop :=
  points id parent ∧ id ∉ cuts

theorem Without.transGen {cuts : List String} {id other : String}
    (path : Relation.TransGen (Without points cuts) id other) : Relation.TransGen points id other :=
  Relation.TransGen.mono (fun _ _ step => step.1) _ _ path

/-- On a cycle, what is above is also below. -/
theorem transGen_back (functional : Relator.RightUnique points) {id other : String}
    (cycle : Relation.TransGen points id id) (path : Relation.TransGen points id other) :
    Relation.TransGen points other id := by
  have around {here next : String} (step : points here next)
      (back : Relation.TransGen points here id) : Relation.TransGen points next id := by
    obtain ⟨first, firstStep, rest⟩ := Relation.TransGen.head'_iff.mp back
    rw [functional step firstStep]
    exact .trans_right rest cycle
  induction path with
  | single step => exact around step cycle
  | tail _ step ih => exact around step ih

/-- Of the IDs of a cycle one comes first. -/
theorem exists_opensCycle (functional : Relator.RightUnique points) {id : String}
    (cycle : Relation.TransGen points id id) (member : id ∈ order) :
    ∃ first ∈ order, Relation.TransGen points id first ∧ OpensCycle points order first := by
  classical
  cases found : order.find? fun other => decide (Relation.TransGen points id other) with
  | none =>
    have absent := List.find?_eq_none.mp found id member
    exact (absent (decide_eq_true cycle)).elim
  | some first =>
    obtain ⟨reached, before, after, split, earlier⟩ := List.find?_eq_some_iff_append.mp found
    have path : Relation.TransGen points id first := of_decide_eq_true reached
    have unreached {other : String} (inside : other ∈ before) :
        ¬ Relation.TransGen points id other := by
      simpa using earlier other inside
    refine ⟨first, List.mem_of_find?_eq_some found, path,
      (transGen_back functional cycle path).trans path, fun other inside onwards => ?_⟩
    rw [split, Lists.takeWhile_ne fun inside => unreached inside path] at inside
    exact unreached inside (path.trans onwards)

theorem OpensCycle.eq (functional : Relator.RightUnique points) {first second : String}
    (left : OpensCycle points order first) (right : OpensCycle points order second)
    (inside : first ∈ order) (alsoInside : second ∈ order)
    (path : Relation.TransGen points first second) : first = second := by
  by_contra apart
  rcases Lists.mem_takeWhile_ne_or apart inside alsoInside with earlier | later
  · exact right.2 first earlier (transGen_back functional left.1 path)
  · exact left.2 second later path

/-- No ID of a cycle that is left has been detached. -/
theorem not_mem_cuts_of_cycle (functional : Relator.RightUnique points) {cuts : List String}
    {id other : String} (cycle : Relation.TransGen (Without points cuts) id id)
    (path : Relation.TransGen points id other) : other ∉ cuts := by
  have left : Relator.RightUnique (Without points cuts) := fun _ _ _ first second =>
    functional first.1 second.1
  -- A member of the cycle has a pointer that is left, and that is the pointer it had.
  have onwards {here : String} (onCycle : Relation.TransGen (Without points cuts) id here) :
      ∃ next, Without points cuts here next := by
    obtain ⟨next, step, -⟩ :=
      Relation.TransGen.head'_iff.mp (transGen_back left cycle onCycle)
    exact ⟨next, step⟩
  have kept : Relation.TransGen (Without points cuts) id other := by
    induction path with
    | single step =>
      obtain ⟨next, first, -⟩ := Relation.TransGen.head'_iff.mp cycle
      exact .single (functional step first.1 ▸ first)
    | tail _ step ih =>
      obtain ⟨next, last⟩ := onwards ih
      exact ih.tail (functional step last.1 ▸ last)
  obtain ⟨next, last⟩ := onwards kept
  exact last.2

/-- When the first IDs of the cycles before it are detached, an ID still sits above itself exactly
when it is the first of its cycle. -/
theorem cycle_left_iff (functional : Relator.RightUnique points) {cuts done rest : List String}
    {id : String} (distinct : (done ++ id :: rest).Nodup)
    (cut : ∀ other, other ∈ cuts ↔ other ∈ done ∧ OpensCycle points (done ++ id :: rest) other) :
    Relation.TransGen (Without points cuts) id id ↔ OpensCycle points (done ++ id :: rest) id := by
  have fresh : id ∉ done := fun member =>
    (List.nodup_append.mp distinct).2.2 id member id List.mem_cons_self rfl
  constructor
  · intro left
    have cycle := Without.transGen left
    obtain ⟨first, member, path, opens⟩ := exists_opensCycle functional cycle
      (List.mem_append_right done (List.mem_cons_self (a := id) (l := rest)))
    have uncut := not_mem_cuts_of_cycle functional left path
    rcases List.mem_append.mp member with earlier | later
    · exact (uncut ((cut first).mpr ⟨earlier, opens⟩)).elim
    · rcases List.mem_cons.mp later with rfl | later
      · exact opens
      · -- The first of the cycle cannot come after a member of it.
        obtain ⟨between, after, rfl⟩ := List.append_of_mem later
        have order : done ++ id :: (between ++ first :: after) =
            (done ++ id :: between) ++ first :: after := by simp
        rw [order] at distinct opens
        have unmet : first ∉ done ++ id :: between := fun member =>
          (List.nodup_append.mp distinct).2.2 first member first List.mem_cons_self rfl
        have unreached := opens.2 id (by
          rw [Lists.takeWhile_ne unmet]
          exact List.mem_append_right _ List.mem_cons_self)
        exact (unreached (transGen_back functional cycle path)).elim
  · intro opens
    obtain ⟨cycle, first⟩ := opens
    rw [Lists.takeWhile_ne fresh] at first
    have uncut {other : String} (reached : Relation.ReflTransGen points id other) :
        other ∉ cuts := by
      intro member
      have earlier := ((cut other).mp member).1
      rcases Relation.reflTransGen_iff_eq_or_transGen.mp reached with rfl | path
      · exact fresh earlier
      · exact first other earlier path
    have lift {other : String} (path : Relation.TransGen points id other) :
        Relation.TransGen (Without points cuts) id other := by
      induction path with
      | single step => exact .single ⟨step, uncut .refl⟩
      | tail path step ih => exact ih.tail ⟨step, uncut path.to_reflTransGen⟩
    exact lift cycle

/-- When the first IDs of all cycles are detached, no cycle is left. -/
theorem acyclic_of_cuts (functional : Relator.RightUnique points)
    (sources : ∀ id parent, points id parent → id ∈ order) {cuts : List String}
    (cut : ∀ id, OpensCycle points order id → id ∈ cuts) (id : String) :
    ¬ Relation.TransGen (Without points cuts) id id := by
  intro left
  obtain ⟨next, step, -⟩ := Relation.TransGen.head'_iff.mp left
  obtain ⟨first, -, path, opens⟩ := exists_opensCycle functional (Without.transGen left)
    (sources id next step.1)
  exact not_mem_cuts_of_cycle functional left path (cut first opens)

end Pointers

variable {α : Type}

namespace Node

/-- The nodes with those of some IDs detached. -/
def detachAll (cuts : List String) (nodes : List (Node α)) : List (Node α) :=
  nodes.map fun node => if node.id ∈ cuts then node.detach else node

theorem ids_detachAll (cuts : List String) (nodes : List (Node α)) :
    (detachAll cuts nodes).map (·.id) = nodes.map (·.id) := by
  unfold detachAll
  rw [List.map_map]
  apply List.map_congr_left
  intro node _
  rw [Function.comp_apply]
  split <;> rfl

theorem points_detachAll {cuts : List String} {nodes : List (Node α)} {id parent : String} :
    Points (detachAll cuts nodes) id parent ↔ Without (Points nodes) cuts id parent := by
  constructor
  · intro points
    obtain ⟨_, member, named, points⟩ := points
    obtain ⟨node, present, rfl⟩ := List.mem_map.mp member
    split at named
    · rename_i cut
      simp [cut, detach] at points
    · rename_i uncut
      rw [if_neg uncut] at points
      exact ⟨⟨node, present, named, points⟩, named ▸ uncut⟩
  · intro points
    obtain ⟨⟨node, present, rfl, points⟩, uncut⟩ := points
    exact ⟨node, List.mem_map.mpr ⟨node, present, if_neg uncut⟩, rfl, points⟩

end Node

namespace Board

/-- Detaching one more node. -/
theorem changeNode_detachAll (cuts : List String) (nodes : List (Node α)) (id : String) :
    (indexed (Node.detachAll cuts nodes)).changeNode id Node.detach =
      indexed (Node.detachAll (id :: cuts) nodes) := by
  have changed : (Node.detachAll cuts nodes).map
      (fun node => if node.id = id then node.detach else node) =
        Node.detachAll (id :: cuts) nodes := by
    rw [Node.detachAll, Node.detachAll, List.map_map]
    apply List.map_congr_left
    intro node _
    rw [Function.comp_apply]
    by_cases cut : node.id ∈ cuts
    · rw [if_pos cut, if_pos (List.mem_cons_of_mem id cut)]
      split <;> rfl
    · simp only [cut, List.mem_cons, or_false, ↓reduceIte]
  rw [changeNode, indexed, indexed, changed, places_eq_zipIdx, places_eq_zipIdx,
    Node.ids_detachAll, Node.ids_detachAll]

section

variable {nodes : List (Node α)}

/-- One step of breaking cycles detaches the node exactly when it is the first of its cycle. -/
theorem cutAt_detachAll (distinct : (nodes.map (·.id)).Nodup) {cuts done rest : List String}
    {id : String} (split : nodes.map (·.id) = done ++ id :: rest)
    (cut : ∀ other, other ∈ cuts ↔
      other ∈ done ∧ OpensCycle (Node.Points nodes) (nodes.map (·.id)) other) :
    ∃ more, (indexed (Node.detachAll cuts nodes)).cutAt id = indexed (Node.detachAll more nodes) ∧
      ∀ other, other ∈ more ↔
        other ∈ done ++ [id] ∧ OpensCycle (Node.Points nodes) (nodes.map (·.id)) other := by
  have keyed : (indexed (Node.detachAll cuts nodes)).Keyed :=
    keyed_indexed (by rwa [Node.ids_detachAll])
  have above : (indexed (Node.detachAll cuts nodes)).isDescendant id id = true ↔
      OpensCycle (Node.Points nodes) (nodes.map (·.id)) id := by
    rw [keyed.isDescendant_iff]
    have pointers : Node.Points (indexed (Node.detachAll cuts nodes)).nodes =
        Without (Node.Points nodes) cuts := by
      funext source target
      exact propext Node.points_detachAll
    rw [pointers, split]
    exact cycle_left_iff (Node.points_rightUnique distinct) (split ▸ distinct) (split ▸ cut)
  by_cases opens : OpensCycle (Node.Points nodes) (nodes.map (·.id)) id
  · refine ⟨id :: cuts, by rw [cutAt, if_pos (above.mpr opens), changeNode_detachAll], ?_⟩
    intro other
    rw [List.mem_cons, cut, List.mem_append, List.mem_singleton]
    constructor
    · rintro (rfl | ⟨earlier, first⟩)
      · exact ⟨.inr rfl, opens⟩
      · exact ⟨.inl earlier, first⟩
    · rintro ⟨earlier | rfl, first⟩
      · exact .inr ⟨earlier, first⟩
      · exact .inl rfl
  · refine ⟨cuts, by rw [cutAt, if_neg fun found => opens (above.mp found)], ?_⟩
    intro other
    rw [cut, List.mem_append, List.mem_singleton]
    constructor
    · intro found
      obtain ⟨earlier, first⟩ := found
      exact ⟨.inl earlier, first⟩
    · rintro ⟨earlier | rfl, first⟩
      · exact ⟨earlier, first⟩
      · exact (opens first).elim

/-- Breaking cycles detaches the first node of every cycle and no other. -/
theorem exists_breakCycles_eq (distinct : (nodes.map (·.id)).Nodup) :
    ∃ cuts, (indexed nodes).breakCycles = indexed (Node.detachAll cuts nodes) ∧
      ∀ id, id ∈ cuts ↔ OpensCycle (Node.Points nodes) (nodes.map (·.id)) id := by
  -- The invariant of the loop: of the nodes behind it, it has detached those that open a cycle.
  have run : ∀ rest done cuts, nodes.map (·.id) = done ++ rest →
      (∀ other, other ∈ cuts ↔
        other ∈ done ∧ OpensCycle (Node.Points nodes) (nodes.map (·.id)) other) →
      ∃ all, rest.foldl cutAt (indexed (Node.detachAll cuts nodes)) =
          indexed (Node.detachAll all nodes) ∧
        ∀ other, other ∈ all ↔ other ∈ nodes.map (·.id) ∧
          OpensCycle (Node.Points nodes) (nodes.map (·.id)) other := by
    intro rest
    induction rest with
    | nil =>
      intro done cuts split cut
      rw [List.append_nil] at split
      exact ⟨cuts, rfl, split ▸ cut⟩
    | cons id rest ih =>
      intro done cuts split cut
      obtain ⟨more, step, cutMore⟩ := cutAt_detachAll distinct split cut
      rw [List.foldl_cons, step]
      exact ih (done ++ [id]) more (by simp [split]) cutMore
  obtain ⟨cuts, result, cut⟩ := run (nodes.map (·.id)) [] [] rfl (by simp)
  refine ⟨cuts, ?_, fun id => (cut id).trans (and_iff_right_of_imp fun opens => ?_)⟩
  · rw [← result, breakCycles]
    simp [indexed, Node.detachAll]
  · obtain ⟨parent, points, -⟩ := Relation.TransGen.head'_iff.mp opens.1
    exact points.mem_ids

end

end Board

end DeckBuilder
