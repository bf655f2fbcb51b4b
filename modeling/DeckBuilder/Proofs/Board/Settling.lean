import DeckBuilder.Proofs.Board.Rebinding
import DeckBuilder.Proofs.Board.Tidying

/-! # Settled cards

A node is settled when dropping it where it is changes nothing. Tidying a board settles the cards in
groups, and a free card as far as the groups are concerned that are in no other group. A group
inside another one may still reach down to the free cards, and takes in those that it covers.
-/

namespace DeckBuilder.Board

variable {α : Type}

open scoped ExactCoordinates

/-- **Tidying settles cards, except those that nested groups cover.** On a board of exact
coordinates that was built from nodes and tidied, a card in a group overlaps its group and is
settled. A free card overlaps no group that is in no other group, and it is settled exactly when it
overlaps no group inside another one either. -/
theorem settled_autosort [Ring α] [LinearOrder α] [IsStrictOrderedRing α] (nodes : List (Node α))
    (catalogue : Catalogue) :
    let tidy := (ofNodes nodes).autosort catalogue
    ∀ card ∈ tidy.nodes, card.isCard →
      (∀ parent, card.parent = some parent →
        tidy.Overlaps parent card.id ∧ tidy.Settled card.id) ∧
      (card.parent = none →
        (∀ group ∈ tidy.nodes, group.isGroup → group.parent = none →
          ¬ tidy.Overlaps group.id card.id) ∧
        (tidy.Settled card.id ↔ ∀ group ∈ tidy.nodes, group.isGroup → group.parent ≠ none →
          ¬ tidy.Overlaps group.id card.id)) := by
  intro tidy card member isCard
  have sound : (ofNodes nodes).Sound := sound_ofNodes nodes
  have tidySound : tidy.Sound := sound.autosort catalogue
  have single : card.isGroup = false := Node.isGroup_eq_false_of_isCard isCard
  refine ⟨fun parent below => ?_, fun free => ?_⟩
  · have overlaps : tidy.Overlaps parent card.id := sound.overlaps_autosort member single below
    exact ⟨overlaps, (tidySound.settled_iff member single).mpr (.inl ⟨parent, below, overlaps⟩)⟩
  · have clear (group : Node α) (inside : group ∈ tidy.nodes) (isGroup : group.isGroup)
        (outside : group.parent = none) : ¬ tidy.Overlaps group.id card.id :=
      (sound.under_autosort inside isGroup outside member isCard free).not_overlaps
    refine ⟨clear, ?_⟩
    rw [tidySound.settled_iff member single]
    simp only [free, reduceCtorEq, false_and, exists_false, true_and, false_or]
    constructor
    · exact fun none group inside isGroup _ => none group inside isGroup
    · intro nested group inside isGroup
      by_cases outside : group.parent = none
      · exact clear group inside isGroup outside
      · exact nested group inside isGroup outside

theorem settled_autosort_crowdedBoard :
    let tidy := (ofNodes crowdedBoard).autosort ⟨[]⟩
    tidy.Overlaps "outer" "island" ∧ tidy.Settled "island" ∧ ¬ tidy.Overlaps "outer" "shock" := by
  intro tidy
  have nodes : tidy.nodes = tidiedBoard := congrArg Board.nodes (autosort_crowdedBoard ⟨[]⟩)
  have listed {node : Node Int} (member : node ∈ tidiedBoard) : node ∈ tidy.nodes := nodes ▸ member
  have grouped := (settled_autosort crowdedBoard ⟨[]⟩
    ⟨"island", ⟨12, 12⟩, some "outer", .card "island" .main .normal none⟩
    (listed (by simp [tidiedBoard])) rfl).1 "outer" rfl
  have free := (settled_autosort crowdedBoard ⟨[]⟩
    ⟨"shock", ⟨12, 316⟩, none, .card "shock" .main .normal none⟩
    (listed (by simp [tidiedBoard])) rfl).2 rfl
  exact ⟨grouped.1, grouped.2, free.1 ⟨"outer", ⟨0, 0⟩, none, .group "Outer" 200 236⟩
    (listed (by simp [tidiedBoard])) rfl rfl⟩

/-- Not every card is settled: the group inside another one covers the free card. -/
theorem exists_unsettled_card_autosort :
    ¬ ∀ (nodes : List (Node Int)) (catalogue : Catalogue),
      let tidy := (ofNodes nodes).autosort catalogue
      ∀ card ∈ tidy.nodes, card.isCard → (tidy.drop card.id).2 = .unchanged := by
  intro settled
  have unchanged := settled crowdedBoard ⟨[]⟩
    ⟨"shock", ⟨12, 316⟩, none, .card "shock" .main .normal none⟩
  rw [autosort_crowdedBoard] at unchanged
  have attached : ((indexed tidiedBoard).drop "shock").2 = .attached "inner" := by
    decide +kernel
  rw [unchanged (by decide +kernel) rfl] at attached
  cases attached

end DeckBuilder.Board
