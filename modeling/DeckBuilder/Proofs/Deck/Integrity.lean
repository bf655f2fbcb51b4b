import DeckBuilder.Proofs.Deck.Zones

/-! # Integrity of the zones of a saved deck

Whatever a list of nodes and an old deck contain, the zones that come out form a forest: no zone is
there twice, every child has one place, nesting has no cycle, and no parent names a zone that is
not there. The repaired board gives this for the zones; that cards kept from the old deck name no
stale zone is due to the last step of reconciling, which forgets unknown parents.
-/

namespace DeckBuilder

variable {α : Type}

/-- The zone with one ID lists the other ID among the zones inside it. -/
def Zone.Holds (zones : List (Zone α)) (outer inner : String) : Prop :=
  ∃ zone ∈ zones, zone.id = outer ∧ inner ∈ zone.zoneChildren

/-- The zones of a deck form a forest in which every child has one place, and all parents that
placements name are zones of the deck. -/
structure Deck.ZonesSound (deck : Deck α) : Prop where
  distinct : (deck.zones.map (·.id)).Nodup
  cardsOnce : (deck.zones.flatMap (·.cardChildren)).Nodup
  zonesOnce : (deck.zones.flatMap (·.zoneChildren)).Nodup
  apart : (deck.zones.flatMap (·.cardChildren)).Disjoint (deck.zones.flatMap (·.zoneChildren))
  known : ∀ zone ∈ deck.zones, ∀ child ∈ zone.zoneChildren, child ∈ deck.zones.map (·.id)
  acyclic : ∀ id, ¬ Relation.TransGen (Zone.Holds deck.zones) id id
  parents : ∀ card ∈ deck.cards, ∀ placement ∈ card.placements, ∀ parent,
    placement.parent = some parent → parent ∈ deck.zones.map (·.id)

namespace Board

variable {board : Board α}

theorem mem_map_id_toZones {id : String} :
    id ∈ board.toZones.map (·.id) ↔ ∃ group ∈ board.nodes, group.isGroup ∧ group.id = id := by
  rw [← Node.namesGroup_eq_true_iff, ← any_id_toZones, List.any_eq_true, List.mem_map]
  simp only [beq_iff_eq]

theorem map_id_toZones_sublist (board : Board α) :
    (board.toZones.map (·.id)).Sublist (board.nodes.map (·.id)) := by
  have groups : board.toZones.map (·.id) = (board.nodes.filter (·.isGroup)).map (·.id) := by
    unfold toZones
    rw [List.map_filterMap, ← List.filterMap_eq_map, ← List.filterMap_eq_filter,
      List.filterMap_filterMap]
    apply List.filterMap_congr
    intro node _
    cases data : node.data <;> simp [zone?, Node.isGroup, data, Option.guard]
  rw [groups]
  exact List.filter_sublist.map _

section

variable {listed : Zone α → List String} {kind : Node α → Bool}
  (lists : ∀ zone ∈ board.toZones,
    listed zone = ((board.children zone.id).filter kind).map (·.id))

include lists

/-- The zones together list a child of one kind only once, since it has one parent. -/
theorem nodup_flatMap_toZones (keyed : board.Keyed) : (board.toZones.flatMap listed).Nodup := by
  have distinct : (board.toZones.map fun zone => some zone.id).Nodup := by
    rw [show (fun zone : Zone α => some zone.id) = some ∘ (·.id) from rfl, ← List.map_map]
    exact (keyed.distinct.sublist board.map_id_toZones_sublist).map (Option.some_injective _)
  refine Lists.nodup_flatMap_of_key board.parent? distinct ?_ ?_
  · intro zone member
    rw [lists zone member]
    exact keyed.distinct.sublist ((List.filter_sublist.trans List.filter_sublist).map _)
  · intro zone member id inside
    rw [lists zone member] at inside
    obtain ⟨child, present, -, above, named⟩ := mem_map_id_children.mp inside
    exact keyed.parent?_eq_some_iff.mpr ⟨child, present, named, above⟩

theorem exists_of_mem_flatMap_toZones {id : String} (member : id ∈ board.toZones.flatMap listed) :
    ∃ child ∈ board.nodes, kind child ∧ child.id = id := by
  obtain ⟨zone, inside, isListed⟩ := List.mem_flatMap.mp member
  rw [lists zone inside] at isListed
  obtain ⟨child, present, isKind, -, named⟩ := mem_map_id_children.mp isListed
  exact ⟨child, present, isKind, named⟩

end

theorem points_of_holds {outer inner : String} (holds : Zone.Holds board.toZones outer inner) :
    Node.Points board.nodes inner outer := by
  obtain ⟨zone, member, rfl, listed⟩ := holds
  rw [(children_eq member).2] at listed
  obtain ⟨child, present, -, above, named⟩ := mem_map_id_children.mp listed
  exact ⟨child, present, named, above⟩

end Board

theorem Position.parent_within {position : Position α} {zones : List (Zone α)} {parent : String}
    (above : (position.within zones).parent = some parent) : parent ∈ zones.map (·.id) := by
  obtain ⟨-, known⟩ := Option.filter_eq_some_iff.mp above
  obtain ⟨zone, member, named⟩ := List.any_eq_true.mp known
  exact List.mem_map.mpr ⟨zone, member, beq_iff_eq.mp named⟩

theorem Position.parent_within_eq_iff (position : Position α) {zones : List (Zone α)}
    {zone : Zone α} (member : zone ∈ zones) :
    (position.within zones).parent = some zone.id ↔ position.parent = some zone.id := by
  rw [Position.within, Option.filter_eq_some_iff]
  exact and_iff_left (List.any_eq_true.mpr ⟨zone, member, beq_self_eq_true zone.id⟩)

theorem DeckCard.placements_within (card : DeckCard α) (zones : List (Zone α)) :
    (card.within zones).placements = card.placements.map (·.within zones) :=
  rfl

namespace Deck

/-- **Saving leaves the zones sound.** Whatever the nodes and the deck, repeated IDs, cycles and
dangling references included, the saved deck has zones that form a forest, lists every child once,
and names no parent that is not one of its zones. -/
theorem zonesSound_reconcile (deck : Deck α) (nodes : List (Node α)) :
    (deck.reconcile nodes).ZonesSound := by
  let board := Board.ofNodes nodes
  have keyed : board.Keyed := Board.keyed_ofNodes nodes
  have repaired : Node.Repaired board.nodes := Board.repaired_ofNodes nodes
  have cards := fun zone (member : zone ∈ board.toZones) => (Board.children_eq member).1
  have zones := fun zone (member : zone ∈ board.toZones) => (Board.children_eq member).2
  refine ⟨?_, ?_, ?_, ?_, ?_, ?_, ?_⟩
  · exact keyed.distinct.sublist board.map_id_toZones_sublist
  · exact Board.nodup_flatMap_toZones cards keyed
  · exact Board.nodup_flatMap_toZones zones keyed
  · -- A child listed as a card and as a zone would be one node of both kinds.
    intro id asCard asZone
    obtain ⟨card, present, isCard, rfl⟩ := Board.exists_of_mem_flatMap_toZones cards asCard
    obtain ⟨group, inside, isGroup, named⟩ := Board.exists_of_mem_flatMap_toZones zones asZone
    rw [Node.eq_of_id_eq keyed.distinct inside present named] at isGroup
    cases data : card.data <;> simp [Node.isCard, Node.isGroup, data] at isCard isGroup
  · intro zone member child listed
    have inside : child ∈ board.toZones.flatMap (·.zoneChildren) :=
      List.mem_flatMap.mpr ⟨zone, member, listed⟩
    exact Board.mem_map_id_toZones.mpr (Board.exists_of_mem_flatMap_toZones zones inside)
  · intro id cycle
    have upwards : Relation.TransGen (Function.swap (Node.Points board.nodes)) id id :=
      Relation.TransGen.mono (fun _ _ => Board.points_of_holds) _ _ cycle
    exact (Node.wellFounded_points_iff keyed.distinct).mp repaired.ends id
      (Relation.transGen_swap.mp upwards)
  · intro card member placement placed parent above
    obtain ⟨record, -, rfl⟩ := List.mem_map.mp member
    rw [DeckCard.placements_within] at placed
    obtain ⟨position, -, rfl⟩ := List.mem_map.mp placed
    exact Position.parent_within above

/-- Two groups inside each other, one of them given twice, and a deck with a card that a zone which
is gone held. -/
example :
    let deck : Deck Nat := ⟨"d", "Deck", [⟨"bolt", 4, .main, .normal, none, ⟨0, 0, some "gone"⟩,
      [⟨1, 1, some "b"⟩]⟩], [], [], none⟩
    let group (id parent : String) : Node Nat := ⟨id, ⟨0, 0⟩, some parent, .group id 1 1⟩
    let saved := deck.reconcile [group "a" "b", group "b" "a", group "b" "b"]
    saved.zones.map (fun zone => (zone.id, zone.zoneChildren)) = [("a", ["b"]), ("b", [])] ∧
      saved.cards.map (fun card => card.placements.map (·.parent)) = [[none, some "b"]] := by
  decide +kernel

end Deck

end DeckBuilder
