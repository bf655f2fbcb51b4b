import DeckBuilder.Proofs.Board.Positions
import DeckBuilder.Proofs.Board.Runs

/-! # Changing groups

A dropped node that does not stay gets into the first of the deepest groups that it overlaps, or out
of all groups. Only what its coordinates are relative to changes, so that nothing moves on the board
and another drop finds the node settled.
-/

namespace DeckBuilder

variable {α : Type}

namespace DropOutcome

/-- What is told of a node that leaves one parent for another one. -/
inductive Tells : Option String → Option String → DropOutcome → Prop where
  | attached (group : String) : Tells none (some group) (attached group)
  | detached (group : String) : Tells (some group) none (detached group)
  | moved {source target : String} (apart : source ≠ target) :
    Tells (some source) (some target) (moved source target)

theorem tells_ofParents {source target : Option String} (apart : source ≠ target) :
    Tells source target (ofParents source target) := by
  cases source with
  | none =>
    cases target with
    | none => exact absurd rfl apart
    | some target => exact .attached target
  | some source =>
    cases target with
    | none => exact .detached source
    | some target =>
      have other : source ≠ target := fun same => apart (congrArg some same)
      rw [ofParents, if_neg other]
      exact .moved other

end DropOutcome

namespace Board

variable {board : Board α}

/-! ## When a node stays -/

section

variable [Coordinate α]

/-- Dropping the node with an ID where it is changes nothing. -/
def Settled (board : Board α) (id : String) : Prop :=
  board.drop id = (board, .unchanged)

theorem mem_groupsOver_iff_overlaps {id : String} {rect : Rect α}
    (place : board.absoluteRect? id = some rect) {group : Node α} :
    group ∈ board.groupsOver rect ↔
      group ∈ board.nodes ∧ group.isGroup ∧ board.Overlaps group.id id := by
  simp only [mem_groupsOver, Overlaps, place, Option.some_inj, exists_and_left, exists_eq_left']

theorem Sound.settled_iff (sound : board.Sound) {node : Node α} (member : node ∈ board.nodes)
    (single : node.isGroup = false) :
    board.Settled node.id ↔
      (∃ parent, node.parent = some parent ∧ board.Overlaps parent node.id) ∨
        node.parent = none ∧ ∀ group ∈ board.nodes, group.isGroup →
          ¬ board.Overlaps group.id node.id := by
  obtain ⟨origin, placed⟩ := sound.exists_absolutePosition? member
  have place := sound.absoluteRect?_id member placed
  have touches : TouchesParent node (board.groupsOver ⟨origin, node.width, node.height⟩) ↔
      ∃ parent, node.parent = some parent ∧ board.Overlaps parent node.id := by
    constructor
    · rintro ⟨group, touched, above⟩
      exact ⟨group.id, above.symm, ((mem_groupsOver_iff_overlaps place).mp touched).2.2⟩
    · rintro ⟨parent, below, overlaps⟩
      obtain ⟨group, inside, isGroup, rfl⟩ :=
        sound.exists_group_of_parent? ((sound.parent?_id member).trans below)
      exact ⟨group, (mem_groupsOver_iff_overlaps place).mpr ⟨inside, isGroup, overlaps⟩,
        below.symm⟩
  rw [Settled, drop_eq_self_iff (sound.get?_id member) place single, touches,
    List.eq_nil_iff_forall_not_mem]
  simp only [mem_groupsOver_iff_overlaps place, not_and]

/-- The reasons for which the node with an ID stays where it is. -/
inductive Stays (board : Board α) (id : String) : Prop where
  | unknown (missing : board.get? id = none)
  | group {node : Node α} (found : board.get? id = some node) (isGroup : node.isGroup)
  | grouped {node : Node α} {parent : String} (found : board.get? id = some node)
    (below : node.parent = some parent) (overlaps : board.Overlaps parent id)
  | free {node : Node α} (found : board.get? id = some node) (outside : node.parent = none)
    (clear : ∀ group ∈ board.nodes, group.isGroup → ¬ board.Overlaps group.id id)

/-- A node is settled exactly when it has a reason to stay. -/
theorem Sound.settled_iff_stays (sound : board.Sound) (id : String) :
    board.Settled id ↔ board.Stays id := by
  cases found : board.get? id with
  | none => exact iff_of_true (by simp only [Settled, Board.drop, found]) (.unknown found)
  | some node =>
    obtain ⟨member, rfl⟩ := sound.keyed.get?_eq_some_iff.mp found
    cases single : node.isGroup with
    | true =>
      obtain ⟨origin, placed⟩ := sound.exists_absolutePosition? member
      have place := sound.absoluteRect?_id member placed
      exact iff_of_true (by simp only [Settled, Board.drop, found, place, single, ↓reduceIte])
        (.group found single)
    | false =>
      rw [sound.settled_iff member single]
      constructor
      · rintro (⟨parent, below, overlaps⟩ | ⟨outside, clear⟩)
        · exact .grouped found below overlaps
        · exact .free found outside clear
      · intro stays
        cases stays with
        | unknown missing => rw [found] at missing; cases missing
        | group same isGroup =>
          rw [found, Option.some_inj] at same
          rw [← same, single] at isGroup
          cases isGroup
        | grouped same below overlaps =>
          rw [found, Option.some_inj] at same
          exact .inl ⟨_, same ▸ below, overlaps⟩
        | free same outside clear =>
          rw [found, Option.some_inj] at same
          exact .inr ⟨same ▸ outside, clear⟩

/-- Where a node belongs by what it overlaps: in the first of the deepest groups, or in no group. -/
inductive Home (board : Board α) (id : String) : Option String → Prop where
  | free (clear : ∀ group ∈ board.nodes, group.isGroup → ¬ board.Overlaps group.id id) :
    Home board id none
  | group {before after : List (Node α)} {group : Node α}
    (order : board.nodes = before ++ group :: after) (isGroup : group.isGroup)
    (overlaps : board.Overlaps group.id id)
    (earlier : ∀ other ∈ before, other.isGroup → board.Overlaps other.id id →
      board.depth other.id < board.depth group.id)
    (later : ∀ other ∈ after, other.isGroup → board.Overlaps other.id id →
      board.depth other.id ≤ board.depth group.id) :
    Home board id (some group.id)

theorem Home.exists_group {id : String} {target : Option String} (home : board.Home id target) :
    ∀ parent, target = some parent →
      ∃ group ∈ board.nodes, group.isGroup ∧ group.id = parent := by
  intro parent chosen
  cases home with
  | free => cases chosen
  | group order isGroup =>
    cases chosen
    exact ⟨_, order ▸ List.mem_append_right _ List.mem_cons_self, isGroup, rfl⟩

/-- The deepest group that a drop finds is where the node belongs. -/
theorem home_deepest? {id : String} {rect : Rect α} (place : board.absoluteRect? id = some rect) :
    board.Home id ((board.deepest? (board.groupsOver rect)).map (·.id)) := by
  cases deepest : board.deepest? (board.groupsOver rect) with
  | none =>
    have none := deepest?_eq_none_iff.mp deepest
    refine .free fun group inside isGroup overlaps => ?_
    have touched := (mem_groupsOver_iff_overlaps place).mpr ⟨inside, isGroup, overlaps⟩
    rw [none] at touched
    cases touched
  | some group =>
    obtain ⟨-, isGroup, overlaps⟩ :=
      (mem_groupsOver_iff_overlaps place).mp (mem_of_deepest? deepest)
    obtain ⟨before, after, order, earlier, later⟩ :=
      (firstHighest_of_deepest? deepest).exists_split_of_filter
    have touched {other : Node α} (inside : other ∈ board.nodes) (isGroup : other.isGroup)
        (overlaps : board.Overlaps other.id id) :
        (other.isGroup && (board.absoluteRect? other.id).any (·.intersects rect)) = true :=
      (List.mem_filter.mp ((mem_groupsOver_iff_overlaps place).mpr ⟨inside, isGroup, overlaps⟩)).2
    refine .group order isGroup overlaps (fun other before isGroup overlaps => ?_)
      fun other after isGroup overlaps => ?_
    · refine earlier other before (touched ?_ isGroup overlaps)
      exact order ▸ List.mem_append_left _ before
    · refine later other after (touched ?_ isGroup overlaps)
      exact order ▸ List.mem_append_right _ (List.mem_cons_of_mem _ after)

/-- A node that does not stay is attached to where it belongs. -/
theorem Sound.drop_of_not_stays (sound : board.Sound) {id : String} (astray : ¬ board.Stays id) :
    ∃ node ∈ board.nodes, node.id = id ∧ node.isGroup = false ∧
      ∃ absolute target, board.absolutePosition? id = some absolute ∧ board.Home id target ∧
        node.parent ≠ target ∧
        board.drop id = ((board.reattach id absolute target).sortByNesting,
          .ofParents node.parent target) := by
  cases found : board.get? id with
  | none => exact absurd (.unknown found) astray
  | some node =>
    obtain ⟨member, rfl⟩ := sound.keyed.get?_eq_some_iff.mp found
    have single : node.isGroup = false :=
      Bool.eq_false_of_not_eq_true fun isGroup => astray (.group found isGroup)
    obtain ⟨absolute, placed⟩ := sound.exists_absolutePosition? member
    have place := sound.absoluteRect?_id member placed
    rw [← sound.settled_iff_stays, Settled, drop_eq_self_iff found place single, not_or] at astray
    have target : board.dropTarget node (board.groupsOver ⟨absolute, node.width, node.height⟩) =
        (board.deepest? (board.groupsOver ⟨absolute, node.width, node.height⟩)).map (·.id) :=
      dropTarget_eq_deepest? astray.1
    have home := home_deepest? place
    rw [← target] at home
    have moved : node.parent ≠
        board.dropTarget node (board.groupsOver ⟨absolute, node.width, node.height⟩) :=
      mt parent_eq_dropTarget_iff.mp (not_or.mpr astray)
    refine ⟨node, member, rfl, single, absolute, _, placed, home, moved, ?_⟩
    exact (drop_eq found place single).trans (if_neg moved)

end

/-! ## Nothing moves -/

section

variable [Coordinate α]

theorem absoluteRect?_congr {first second : Board α} {id : String}
    (positions : first.absolutePosition? id = second.absolutePosition? id)
    (data : (first.get? id).map (·.data) = (second.get? id).map (·.data)) :
    first.absoluteRect? id = second.absoluteRect? id := by
  rw [absoluteRect?, absoluteRect?, positions]
  cases found : first.get? id with
  | none =>
    rw [found, Option.map_none, eq_comm, Option.map_eq_none_iff] at data
    rw [data]
  | some node =>
    rw [found, Option.map_some, eq_comm, Option.map_eq_some_iff] at data
    obtain ⟨other, alsoFound, same⟩ := data
    obtain ⟨width, height⟩ := Node.size_eq_of_data_eq same
    simp only [alsoFound, Option.bind_eq_bind, Option.bind_some, width, height]

theorem overlaps_congr {first second : Board α}
    (rects : ∀ id, first.absoluteRect? id = second.absoluteRect? id) (left right : String) :
    first.Overlaps left right ↔ second.Overlaps left right := by
  rw [Overlaps, Overlaps, rects, rects]

omit [Coordinate α] in
theorem Sound.get?_sortByNesting (sound : board.Sound) (id : String) :
    board.sortByNesting.get? id = board.get? id :=
  get?_eq_of_perm sound.sortByNesting.keyed sound.keyed board.sortByNesting_perm id

theorem Sound.absolutePosition?_sortByNesting (sound : board.Sound) (id : String) :
    board.sortByNesting.absolutePosition? id = board.absolutePosition? id := by
  have found : board.sortByNesting.get? = board.get? := funext sound.get?_sortByNesting
  rw [absolutePosition?, absolutePosition?, sound.ancestors_sortByNesting, found]

end

/-! ### A node with another parent -/

theorem get?_changeNode (board : Board α) (id other : String) (change : Node α → Node α) :
    (board.changeNode id change).get? other =
      (board.get? other).map fun node => if node.id = id then change node else node :=
  get?_map board _ other

section

variable [Coordinate α] {node : Node α} {absolute : Point α} {target : Option String}

theorem data_reattach (board : Board α) (id other : String) :
    ((board.reattach id absolute target).get? other).map (·.data) =
      (board.get? other).map (·.data) := by
  rw [reattach, get?_changeNode, Option.map_map]
  refine congrArg (fun data => (board.get? other).map data) (funext fun node => ?_)
  rw [Function.comp_apply]
  split <;> rfl

variable (sound : board.Sound) (member : node ∈ board.nodes) (single : node.isGroup = false)

include sound

theorem Sound.get?_reattach_of_ne {id other : String} (apart : other ≠ id) :
    (board.reattach id absolute target).get? other = board.get? other := by
  rw [Board.reattach, get?_changeNode]
  cases found : board.get? other with
  | none => rfl
  | some node =>
    have named := (sound.keyed.get?_eq_some_iff.mp found).2
    rw [Option.map_some, if_neg (named.trans_ne apart)]

include member

theorem Sound.get?_reattach_self :
    (board.reattach node.id absolute target).get? node.id =
      some { node with
        position := absolute.minus ((target.bind board.absolutePosition?).getD .zero)
        parent := target } := by
  rw [Board.reattach, get?_changeNode, sound.get?_id member, Option.map_some, if_pos rfl]

include single

omit [Coordinate α] in
/-- A card or phantom is no group. -/
theorem Sound.ne_of_group {group : String}
    (isGroup : ∃ other ∈ board.nodes, other.isGroup ∧ other.id = group) : group ≠ node.id := by
  rintro rfl
  obtain ⟨other, inside, isGroup, same⟩ := isGroup
  rw [Node.eq_of_id_eq sound.repaired.distinct inside member same, single] at isGroup
  cases isGroup

variable (grouped : ∀ parent, target = some parent →
  ∃ group ∈ board.nodes, group.isGroup ∧ group.id = parent)

include grouped

/-- What is above another node is groups, so their parents are what they were. -/
theorem Sound.ancestors_reattach_of_ne {other : String} (apart : other ≠ node.id) :
    (board.reattach node.id absolute target).ancestors other = board.ancestors other := by
  have same : ∀ met ∈ other :: board.ancestors other,
      (board.reattach node.id absolute target).parent? met = board.parent? met := by
    intro met isMet
    have notNode : met ≠ node.id := by
      rcases List.mem_cons.mp isMet with rfl | higher
      · exact apart
      · exact sound.ne_of_group member single (sound.exists_group_of_mem_ancestors higher)
    rw [parent?, parent?, sound.get?_reattach_of_ne notNode]
  have after := sound.reattach member single absolute grouped
  exact (after.climbs_ancestors other).unique ((sound.climbs_ancestors other).congr same)

theorem Sound.absolutePosition?_reattach_of_ne {other : String} (apart : other ≠ node.id) :
    (board.reattach node.id absolute target).absolutePosition? other =
      board.absolutePosition? other := by
  have above : (board.ancestors other).filterMap
      (board.reattach node.id absolute target).get? =
        (board.ancestors other).filterMap board.get? := by
    refine List.filterMap_congr fun ancestor isAbove => ?_
    exact sound.get?_reattach_of_ne
      (sound.ne_of_group member single (sound.exists_group_of_mem_ancestors isAbove))
  rw [absolutePosition?, absolutePosition?, sound.get?_reattach_of_ne apart,
    sound.ancestors_reattach_of_ne member single grouped apart, above]

end

open scoped ExactCoordinates

variable [Ring α] [LinearOrder α]

/-- A node that is attached somewhere else stays where it is, and so do all others. -/
theorem Sound.absolutePosition?_reattach (sound : board.Sound) {node : Node α}
    (member : node ∈ board.nodes) (single : node.isGroup = false) {absolute : Point α}
    (placed : board.absolutePosition? node.id = some absolute) {target : Option String}
    (grouped : ∀ parent, target = some parent →
      ∃ group ∈ board.nodes, group.isGroup ∧ group.id = parent) (other : String) :
    (board.reattach node.id absolute target).absolutePosition? other =
      board.absolutePosition? other := by
  by_cases same : other = node.id
  · have after := sound.reattach member single absolute grouped
    have inside := (after.keyed.get?_eq_some_iff.mp (sound.get?_reattach_self member)).1
    rw [same, placed]
    cases target with
    | none =>
      refine (after.absolutePosition?_of_free inside rfl).trans (congrArg some ?_)
      exact absolute.minus_zero
    | some parent =>
      obtain ⟨group, isInside, isGroup, rfl⟩ := grouped parent rfl
      obtain ⟨origin, groupPlaced⟩ := sound.exists_absolutePosition? isInside
      have notNode := sound.ne_of_group member single ⟨group, isInside, isGroup, rfl⟩
      have groupStays :
          (board.reattach node.id absolute (some group.id)).absolutePosition? group.id =
            some origin :=
        (sound.absolutePosition?_reattach_of_ne member single grouped notNode).trans groupPlaced
      refine (after.absolutePosition?_of_parent inside rfl groupStays).trans ?_
      refine congrArg some ?_
      simp only [Option.bind_some, groupPlaced, Option.getD_some]
      exact absolute.minus_offset origin
  · exact sound.absolutePosition?_reattach_of_ne member single grouped same

/-! ## What a drop does -/

section

variable (sound : board.Sound) {node : Node α} (member : node ∈ board.nodes)
  (single : node.isGroup = false) {absolute : Point α}
  (placed : board.absolutePosition? node.id = some absolute) {target : Option String}
  (home : board.Home node.id target)

include sound member single placed home

theorem Sound.absoluteRect?_rebound (other : String) :
    (board.reattach node.id absolute target).sortByNesting.absoluteRect? other =
      board.absoluteRect? other := by
  have after := sound.reattach member single absolute home.exists_group
  apply absoluteRect?_congr
  · rw [after.absolutePosition?_sortByNesting]
    exact sound.absolutePosition?_reattach member single placed home.exists_group other
  · rw [after.get?_sortByNesting, data_reattach]

/-- A node stays where it belongs. -/
theorem Sound.stays_rebound :
    (board.reattach node.id absolute target).sortByNesting.Stays node.id := by
  have after := sound.reattach member single absolute home.exists_group
  have found := (after.get?_sortByNesting node.id).trans (sound.get?_reattach_self member)
  have overlaps := overlaps_congr (sound.absoluteRect?_rebound member single placed home)
  cases home with
  | group _ _ touches => exact .grouped found rfl ((overlaps _ _).mpr touches)
  | free clear =>
    refine .free found rfl fun group inside isGroup touches => ?_
    have listed := (after.get?_sortByNesting group.id).symm.trans
      (after.sortByNesting.get?_id inside)
    have apart : group.id ≠ node.id := by
      intro same
      have itself := after.sortByNesting.get?_id inside
      rw [same, found, Option.some_inj] at itself
      rw [← itself] at isGroup
      exact Bool.noConfusion (single.symm.trans isGroup)
    rw [sound.get?_reattach_of_ne apart] at listed
    exact clear group (sound.keyed.get?_eq_some_iff.mp listed).1 isGroup
      ((overlaps _ _).mp touches)

end

/-- What becomes of a board when a node is dropped. -/
structure Rebinds (board : Board α) (id : String) (after : Board α) (outcome : DropOutcome) :
    Prop where
  /-- Exactly a node that stays leaves the board as it is. -/
  unchanged_iff : after = board ∧ outcome = .unchanged ↔ board.Stays id
  /-- Any other node gets where it belongs, and this is told. -/
  rebound : ¬ board.Stays id → ∃ node, board.get? id = some node ∧
    board.Home id (after.parent? id) ∧ DropOutcome.Tells node.parent (after.parent? id) outcome
  /-- Nothing moves on the board. -/
  positions (other : String) : after.absolutePosition? other = board.absolutePosition? other
  /-- No other node changes. -/
  others (other : String) (apart : other ≠ id) : after.get? other = board.get? other
  /-- The dropped node changes only in position and parent, and no node is lost or added. -/
  nodes : ∃ position parent, after.nodes.Perm
    (board.changeNode id fun node => { node with position, parent }).nodes
  /-- Another drop does nothing. -/
  settled : after.Settled id

/-- A node that is given its own position and parent is what it was. -/
theorem Sound.exists_nodes_changeNode_eq (sound : board.Sound) (id : String) :
    ∃ position parent,
      (board.changeNode id fun node => { node with position, parent }).nodes = board.nodes := by
  cases found : board.get? id with
  | none =>
    refine ⟨.zero, none, (List.map_congr_left fun node member => if_neg ?_).trans (List.map_id _)⟩
    rintro rfl
    rw [sound.get?_id member] at found
    cases found
  | some node =>
    obtain ⟨member, rfl⟩ := sound.keyed.get?_eq_some_iff.mp found
    refine ⟨node.position, node.parent,
      (List.map_congr_left fun other inside => ?_).trans (List.map_id _)⟩
    split
    · rename_i same
      have itself := Node.eq_of_id_eq sound.repaired.distinct inside member same
      subst itself
      rfl
    · rfl

theorem Sound.rebinds_of_stays (sound : board.Sound) {id : String} (stays : board.Stays id) :
    board.Rebinds id board .unchanged where
  unchanged_iff := iff_of_true ⟨rfl, rfl⟩ stays
  rebound astray := absurd stays astray
  positions _ := rfl
  others _ _ := rfl
  nodes := by
    obtain ⟨position, parent, same⟩ := sound.exists_nodes_changeNode_eq id
    exact ⟨position, parent, .of_eq same.symm⟩
  settled := (sound.settled_iff_stays id).mpr stays

theorem Sound.rebinds_reattach (sound : board.Sound) {node : Node α} (member : node ∈ board.nodes)
    (single : node.isGroup = false) (astray : ¬ board.Stays node.id) {absolute : Point α}
    (placed : board.absolutePosition? node.id = some absolute) {target : Option String}
    (home : board.Home node.id target) (moved : node.parent ≠ target) :
    board.Rebinds node.id (board.reattach node.id absolute target).sortByNesting
      (.ofParents node.parent target) := by
  have after := sound.reattach member single absolute home.exists_group
  have found := (after.get?_sortByNesting node.id).trans (sound.get?_reattach_self member)
  have above : (board.reattach node.id absolute target).sortByNesting.parent? node.id = target := by
    rw [parent?, found, Option.bind_some]
  refine ⟨?_, fun _ => ?_, fun other => ?_, fun other apart => ?_, ?_, ?_⟩
  · refine iff_of_false (fun same => ?_) astray
    exact moved (DropOutcome.ofParents_eq_unchanged_iff.mp same.2)
  · rw [above]
    exact ⟨node, sound.get?_id member, home, DropOutcome.tells_ofParents moved⟩
  · rw [after.absolutePosition?_sortByNesting]
    exact sound.absolutePosition?_reattach member single placed home.exists_group other
  · rw [after.get?_sortByNesting, sound.get?_reattach_of_ne apart]
  · exact ⟨_, target, Board.sortByNesting_perm _⟩
  · rw [after.sortByNesting.settled_iff_stays]
    exact sound.stays_rebound member single placed home

/-- **A drop only changes the group of a node.** On a board of exact coordinates that was built from
nodes, a dropped node stays when it overlaps its parent, or when it has none and overlaps no group.
Otherwise it gets into the first of the deepest groups that it overlaps, or out of all groups.
Nothing moves on the board, no other node changes, and another drop does nothing. -/
theorem rebinds_drop (nodes : List (Node α)) (id : String) :
    (ofNodes nodes).Rebinds id ((ofNodes nodes).drop id).1 ((ofNodes nodes).drop id).2 := by
  have sound : (ofNodes nodes).Sound := sound_ofNodes nodes
  by_cases stays : (ofNodes nodes).Stays id
  · have settled : (ofNodes nodes).drop id = (ofNodes nodes, .unchanged) :=
      (sound.settled_iff_stays id).mpr stays
    rw [settled]
    exact sound.rebinds_of_stays stays
  · obtain ⟨node, member, rfl, single, absolute, target, placed, home, moved, dropped⟩ :=
      sound.drop_of_not_stays stays
    rw [dropped]
    exact sound.rebinds_reattach member single stays placed home moved

end Board

end DeckBuilder
