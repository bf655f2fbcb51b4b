import DeckBuilder.Deck.FreeSpot

/-! # Editing a deck -/

namespace DeckBuilder

/-- Changes the first item with a property. -/
def changeFirst {β : Type} (chosen : β → Bool) (change : β → β) : List β → List β
  | [] => []
  | item :: rest =>
    if chosen item then change item :: rest else item :: changeFirst chosen change rest

theorem map_changeFirst {β γ : Type} {image : β → γ} {chosen : β → Bool} {change : β → β}
    (kept : ∀ item, image (change item) = image item) (items : List β) :
    (changeFirst chosen change items).map image = items.map image := by
  induction items with
  | nil => rfl
  | cons item rest ih =>
    rw [changeFirst]
    split
    · rw [List.map_cons, List.map_cons, kept]
    · rw [List.map_cons, List.map_cons, ih]

/-- An item is there from before, or it is a chosen one in its new form. -/
theorem exists_of_mem_changeFirst {β : Type} {chosen : β → Bool} {change : β → β} {items : List β}
    {item : β} (member : item ∈ changeFirst chosen change items) :
    item ∈ items ∨ ∃ other ∈ items, chosen other ∧ item = change other := by
  induction items with
  | nil => exact .inl member
  | cons first rest ih =>
    rw [changeFirst] at member
    split at member
    · rename_i isChosen
      rcases List.mem_cons.mp member with rfl | later
      · exact .inr ⟨first, List.mem_cons_self, isChosen, rfl⟩
      · exact .inl (List.mem_cons_of_mem _ later)
    · rcases List.mem_cons.mp member with rfl | later
      · exact .inl List.mem_cons_self
      · refine (ih later).imp (List.mem_cons_of_mem _) ?_
        rintro ⟨other, inside, changed⟩
        exact ⟨other, List.mem_cons_of_mem _ inside, changed⟩

/-- Where keys are distinct, the first item with a key is the only one. -/
theorem changeFirst_eq_map {β κ : Type} [BEq κ] [LawfulBEq κ] {key : β → κ} {items : List β}
    (distinct : (items.map key).Nodup) (wanted : κ) (change : β → β) :
    changeFirst (key · == wanted) change items =
      items.map fun item => if key item == wanted then change item else item := by
  induction items with
  | nil => rfl
  | cons item rest ih =>
    obtain ⟨fresh, tail⟩ := List.nodup_cons.mp distinct
    rw [changeFirst, List.map_cons, ih tail]
    by_cases here : key item = wanted
    · have others : (rest.map fun other => if key other == wanted then change other else other) =
          rest := by
        refine (List.map_congr_left fun other member => ?_).trans (List.map_id rest)
        rw [if_neg fun same => fresh ?_]
        · rfl
        · exact List.mem_map.mpr ⟨other, member, (beq_iff_eq.mp same).trans here.symm⟩
      rw [others, if_pos (beq_iff_eq.mpr here), if_pos (beq_iff_eq.mpr here)]
    · rw [if_neg (mt beq_iff_eq.mp here), if_neg (mt beq_iff_eq.mp here)]

/-- The chosen item is changed in its place. -/
theorem exists_changeFirst_eq_append {β : Type} {chosen : β → Bool} (change : β → β)
    {items : List β} (present : items.any chosen) :
    ∃ before item after, items = before ++ item :: after ∧ chosen item ∧
      (∀ other ∈ before, chosen other = false) ∧
        changeFirst chosen change items = before ++ change item :: after := by
  induction items with
  | nil => cases present
  | cons item rest ih =>
    rw [changeFirst]
    by_cases here : chosen item
    · exact ⟨[], item, rest, rfl, here, List.forall_mem_nil _, if_pos here⟩
    · rw [List.any_cons, Bool.eq_false_iff.mpr here, Bool.false_or] at present
      obtain ⟨before, first, after, rfl, isChosen, earlier, changed⟩ := ih present
      refine ⟨item :: before, first, after, rfl, isChosen, ?_, ?_⟩
      · exact List.forall_mem_cons.mpr ⟨Bool.eq_false_iff.mpr here, earlier⟩
      · rw [if_neg here, changed, List.cons_append]

/-- A change that does nothing to the chosen items does nothing. -/
theorem changeFirst_eq_self {β : Type} {chosen : β → Bool} {change : β → β} {items : List β}
    (same : ∀ item ∈ items, chosen item → change item = item) :
    changeFirst chosen change items = items := by
  induction items with
  | nil => rfl
  | cons item rest ih =>
    obtain ⟨here, later⟩ := List.forall_mem_cons.mp same
    rw [changeFirst]
    split
    · rename_i isChosen
      rw [here isChosen]
    · rw [ih later]

/-- A property that the change keeps holds of all items again. -/
theorem forall_mem_changeFirst {β : Type} {chosen : β → Bool} {change : β → β} {holds : β → Prop}
    (kept : ∀ item, chosen item → holds item → holds (change item)) {items : List β}
    (every : ∀ item ∈ items, holds item) :
    ∀ item ∈ changeFirst chosen change items, holds item := by
  intro item member
  rcases exists_of_mem_changeFirst member with same | ⟨other, inside, isChosen, rfl⟩
  · exact every item same
  · exact kept other isChosen (every other inside)

/-- The sum of two counts, or the largest count when the sum is larger. -/
def addCounts (first second : UInt32) : UInt32 :=
  UInt32.ofNat (min (first.toNat + second.toNat) (UInt32.size - 1))

/-- The side of a zone that nothing has been put into. -/
def emptyZoneSize : Nat := 200

namespace Deck

variable {α : Type} [Coordinate α]

/-- Adds one copy of a card: to its slot when there is one, else in a new slot on the first free
spot. -/
def addCard (deck : Deck α) (slot : Slot) : Deck α :=
  if deck.cards.any (·.slot == slot) then
    { deck with
      cards := changeFirst (·.slot == slot)
        (fun card => { card with count := addCounts card.count 1 }) deck.cards }
  else
    { deck with
      cards := deck.cards ++ [.single slot.cardId slot.part (freePosition deck.cards)] }

/-- Makes a card the only commander. Copies of it in the main deck are dropped, the sideboard keeps
its own. -/
def setCommander (deck : Deck α) (cardId : String) : Deck α :=
  let kept := deck.cards.filter fun card =>
    card.role != .commander && (card.cardId != cardId || card.part != .main)
  { deck with
    cards := kept ++
      [{ DeckCard.single cardId .main (freePosition kept) with role := .commander }] }

omit [Coordinate α] in
/-- Removes a slot with its phantoms. -/
def removeCard (deck : Deck α) (slot : Slot) : Deck α :=
  { deck with cards := deck.cards.eraseP (·.slot == slot) }

omit [Coordinate α] in
/-- Adds an extra placement to a slot, if the deck has it. -/
def addPhantom (deck : Deck α) (slot : Slot) (position : Position α) : Deck α :=
  { deck with
    cards := changeFirst (·.slot == slot)
      (fun card => { card with phantoms := card.phantoms ++ [position] }) deck.cards }

/-- The empty zone that a deck gains. -/
def newZone (id name : String) : Zone α :=
  ⟨id, name, .zero, emptyZoneSize, emptyZoneSize, [], []⟩

/-- Adds an empty zone at the origin of the board. -/
def addZone (deck : Deck α) (id name : String) : Deck α :=
  { deck with zones := deck.zones ++ [newZone id name] }

omit [Coordinate α] in
/-- Ignores a card. -/
def ignoreCard (deck : Deck α) (cardId : String) : Deck α :=
  if deck.ignored.contains cardId then deck else { deck with ignored := deck.ignored ++ [cardId] }

omit [Coordinate α] in
/-- Ignores a card no longer. -/
def unignoreCard (deck : Deck α) (cardId : String) : Deck α :=
  { deck with ignored := deck.ignored.filter (· != cardId) }

end Deck

end DeckBuilder
