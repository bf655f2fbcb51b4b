import DeckBuilder.Deck.Edit
import DeckBuilder.Proofs.Deck.FreeSpot
import DeckBuilder.Proofs.Lists
import Mathlib.Algebra.Order.Ring.Int
import Mathlib.Data.List.Count

/-! # Edited decks

However a new deck is edited, its slots and the spots of its cards stay apart, it has one commander
at most, and a new slot is put where nothing lies.
-/

namespace DeckBuilder

open scoped ExactCoordinates

/-- An edit of a deck. -/
inductive DeckEdit (α : Type) where
  | addCard (slot : Slot)
  | removeCard (slot : Slot)
  | setCommander (cardId : String)
  | addPhantom (slot : Slot) (position : Position α)
  | addZone (id name : String)
  | ignoreCard (cardId : String)
  | unignoreCard (cardId : String)
deriving DecidableEq

variable {α : Type}

namespace Deck

section

variable [Coordinate α]

/-- Makes an edit. -/
def perform (deck : Deck α) : DeckEdit α → Deck α
  | .addCard slot => deck.addCard slot
  | .removeCard slot => deck.removeCard slot
  | .setCommander cardId => deck.setCommander cardId
  | .addPhantom slot position => deck.addPhantom slot position
  | .addZone id name => deck.addZone id name
  | .ignoreCard cardId => deck.ignoreCard cardId
  | .unignoreCard cardId => deck.unignoreCard cardId

/-- Makes edits one after the other. -/
def performAll (deck : Deck α) (edits : List (DeckEdit α)) : Deck α :=
  edits.foldl perform deck

end

/-- What holds of the cards of a deck after any edits. -/
structure SoundCards (cards : List (DeckCard α)) : Prop where
  /-- No two cards are in one slot. -/
  slots : (cards.map (·.slot)).Nodup
  /-- No two cards lie on one spot. -/
  spots : (cards.map (·.position.point)).Nodup
  /-- At most one card is a commander. -/
  commander : cards.countP (·.role == .commander) ≤ 1
  /-- A commander is in the main deck. -/
  inMain : ∀ card ∈ cards, card.role = .commander → card.part = .main
  /-- Every card is there at least once. -/
  counted : ∀ card ∈ cards, 1 ≤ card.count

/-- What holds of a deck after any edits. -/
structure Sound (deck : Deck α) : Prop extends SoundCards deck.cards where
  /-- No card is ignored twice. -/
  ignored : deck.ignored.Nodup

/-- The slot was added last and lies where no other card and no phantom does. -/
def LandsFree (deck : Deck α) (slot : Slot) : Prop :=
  ∃ others card, deck.cards = others ++ [card] ∧ card.slot = slot ∧ card.phantoms = [] ∧
    ∀ other ∈ others, ∀ position ∈ other.placements, position.point ≠ card.position.point

/-! ## Lists of cards -/

namespace SoundCards

variable {cards : List (DeckCard α)}

theorem nil : SoundCards ([] : List (DeckCard α)) where
  slots := List.nodup_nil
  spots := List.nodup_nil
  commander := Nat.zero_le 1
  inMain := by simp
  counted := by simp

theorem sublist (sound : SoundCards cards) {kept : List (DeckCard α)} (sub : kept.Sublist cards) :
    SoundCards kept where
  slots := sound.slots.sublist (sub.map _)
  spots := sound.spots.sublist (sub.map _)
  commander := sub.countP_le.trans sound.commander
  inMain card member := sound.inMain card (sub.subset member)
  counted card member := sound.counted card (sub.subset member)

/-- A change that keeps slots, spots and roles and lowers no count to zero. -/
theorem changeFirst (sound : SoundCards cards) {chosen : DeckCard α → Bool}
    {change : DeckCard α → DeckCard α} (slot : ∀ card, (change card).slot = card.slot)
    (position : ∀ card, (change card).position = card.position)
    (role : ∀ card, (change card).role = card.role)
    (counted : ∀ card : DeckCard α, 1 ≤ card.count → 1 ≤ (change card).count) :
    SoundCards (DeckBuilder.changeFirst chosen change cards) where
  slots := by
    rw [map_changeFirst slot]
    exact sound.slots
  spots := by
    have point (card : DeckCard α) : (change card).position.point = card.position.point :=
      congrArg Position.point (position card)
    rw [map_changeFirst point]
    exact sound.spots
  commander := by
    have roles : (DeckBuilder.changeFirst chosen change cards).map (·.role) = cards.map (·.role) :=
      map_changeFirst role cards
    have counts := congrArg (List.countP (· == .commander)) roles
    rw [List.countP_map, List.countP_map] at counts
    exact counts.trans_le sound.commander
  inMain := by
    refine forall_mem_changeFirst (fun card _ inMain => ?_) sound.inMain
    rw [role, show (change card).part = card.part from congrArg Slot.part (slot card)]
    exact inMain
  counted := forall_mem_changeFirst (fun card _ => counted card) sound.counted

end SoundCards

section

variable [Ring α] [LinearOrder α] {cards : List (DeckCard α)}

/-- A card is added in a new slot and on a free spot; a commander only when there is none. -/
theorem SoundCards.append (sound : SoundCards cards) {card : DeckCard α}
    (fresh : ∀ other ∈ cards, other.slot ≠ card.slot)
    (free : isTaken cards card.position.point = false)
    (leads : card.role = .commander →
      card.part = .main ∧ ∀ other ∈ cards, other.role ≠ .commander)
    (counted : 1 ≤ card.count) : SoundCards (cards ++ [card]) where
  slots := Lists.nodup_map_append_singleton sound.slots fresh
  spots := Lists.nodup_map_append_singleton sound.spots fun _ isOther =>
    ne_of_not_isTaken free isOther List.mem_cons_self
  commander := by
    rw [List.countP_append, List.countP_singleton]
    split
    · rename_i isCommander
      have none := (leads (beq_iff_eq.mp isCommander)).2
      rw [List.countP_eq_zero.mpr fun other isOther => by simpa using none other isOther]
    · exact sound.commander
  inMain := List.forall_mem_append.mpr ⟨sound.inMain,
    List.forall_mem_singleton.mpr fun isCommander => (leads isCommander).1⟩
  counted := List.forall_mem_append.mpr ⟨sound.counted, List.forall_mem_singleton.mpr counted⟩

theorem landsFree_append {deck : Deck α} {card : DeckCard α} {slot : Slot}
    (whole : deck.cards = cards ++ [card]) (here : card.slot = slot)
    (free : isTaken cards card.position.point = false) (single : card.phantoms = []) :
    deck.LandsFree slot :=
  ⟨cards, card, whole, here, single,
    fun _ isOther _ placed => ne_of_not_isTaken free isOther placed⟩

end

end Deck

/-- A count stays positive when copies are added. -/
theorem one_le_addCounts {count : UInt32} (counted : 1 ≤ count) (copies : UInt32) :
    1 ≤ addCounts count copies := by
  rw [UInt32.le_iff_toNat_le, UInt32.toNat_one] at counted ⊢
  rw [addCounts, UInt32.toNat_ofNat', UInt32.size]
  omega

/-! ## Edits -/

namespace Deck

section

variable [Ring α] [LinearOrder α] [IsStrictOrderedRing α] {deck : Deck α}

theorem sound_addCard (sound : deck.Sound) (slot : Slot) : (deck.addCard slot).Sound := by
  rw [addCard]
  split
  · refine ⟨sound.changeFirst ?_ ?_ ?_ ?_, sound.ignored⟩
    · exact fun _ => rfl
    · exact fun _ => rfl
    · exact fun _ => rfl
    · exact fun card counted => one_le_addCounts counted 1
  · rename_i absent
    refine ⟨sound.append ?_ (not_isTaken_freePosition deck.cards) nofun (UInt32.le_refl 1),
      sound.ignored⟩
    intro other isOther same
    exact absent (List.any_eq_true.mpr ⟨other, isOther, beq_iff_eq.mpr same⟩)

theorem landsFree_addCard {slot : Slot} (absent : ∀ card ∈ deck.cards, card.slot ≠ slot) :
    (deck.addCard slot).LandsFree slot := by
  have new : ¬ deck.cards.any (·.slot == slot) := by
    intro present
    obtain ⟨card, isCard, same⟩ := List.any_eq_true.mp present
    exact absent card isCard (beq_iff_eq.mp same)
  rw [addCard, if_neg new]
  exact landsFree_append rfl rfl (not_isTaken_freePosition deck.cards) rfl

theorem sound_setCommander (sound : deck.Sound) (cardId : String) :
    (deck.setCommander cardId).Sound := by
  have kept := sound.sublist (List.filter_sublist (l := deck.cards) (p := fun card =>
    card.role != .commander && (card.cardId != cardId || card.part != .main)))
  refine ⟨kept.append ?_ (not_isTaken_freePosition _) ?_ (UInt32.le_refl 1), sound.ignored⟩
  · intro other isOther same
    have stays := (List.mem_filter.mp isOther).2
    obtain ⟨sameId, samePart⟩ := Slot.mk.inj same
    simp [sameId, samePart, DeckCard.single] at stays
  · refine fun _ => ⟨rfl, fun other isOther isCommander => ?_⟩
    have stays := (List.mem_filter.mp isOther).2
    simp [isCommander] at stays

theorem landsFree_setCommander (deck : Deck α) (cardId : String) :
    (deck.setCommander cardId).LandsFree ⟨cardId, .main⟩ :=
  landsFree_append rfl rfl (not_isTaken_freePosition _) rfl

theorem sound_perform (sound : deck.Sound) (edit : DeckEdit α) : (deck.perform edit).Sound := by
  cases edit with
  | addCard slot => exact sound_addCard sound slot
  | removeCard slot => exact ⟨sound.sublist List.eraseP_sublist, sound.ignored⟩
  | setCommander cardId => exact sound_setCommander sound cardId
  | addPhantom slot position =>
    refine ⟨sound.changeFirst ?_ ?_ ?_ ?_, sound.ignored⟩
    · exact fun _ => rfl
    · exact fun _ => rfl
    · exact fun _ => rfl
    · exact fun _ counted => counted
  | addZone id name => exact ⟨sound.toSoundCards, sound.ignored⟩
  | ignoreCard cardId =>
    rw [perform, ignoreCard]
    split
    · exact sound
    · rename_i absent
      refine ⟨sound.toSoundCards, ?_⟩
      rw [← List.concat_eq_append, List.nodup_concat]
      exact ⟨fun member => absent (List.contains_iff_mem.mpr member), sound.ignored⟩
  | unignoreCard cardId => exact ⟨sound.toSoundCards, sound.ignored.filter _⟩

theorem sound_performAll (sound : deck.Sound) (edits : List (DeckEdit α)) :
    (deck.performAll edits).Sound :=
  List.foldlRecOn (motive := Deck.Sound) edits _ sound fun _ held edit _ => sound_perform held edit

/-- **Edits keep a new deck sound.** After any edits its slots and the spots of its cards are apart,
it has at most one commander, which is in the main deck, and no count is zero; and a new slot lands
where nothing lies. -/
theorem sound_performAll_empty (id name : String) (edits : List (DeckEdit α)) :
    ((empty id name).performAll edits).Sound ∧
      (∀ slot, (∀ card ∈ ((empty id name).performAll edits).cards, card.slot ≠ slot) →
        (((empty id name).performAll edits).addCard slot).LandsFree slot) ∧
      ∀ cardId, (((empty id name).performAll edits).setCommander cardId).LandsFree
        ⟨cardId, .main⟩ := by
  have new : (empty id name : Deck α).Sound := ⟨.nil, List.nodup_nil⟩
  refine ⟨sound_performAll new edits, fun slot absent => landsFree_addCard absent, fun cardId => ?_⟩
  exact landsFree_setCommander _ cardId

end

/-- Edits in which two cards lead the deck in turn, one of them after it was a normal card, and a
phantom takes the second spot of the grid. -/
def twoLeaders : List (DeckEdit Int) :=
  [.addCard ⟨"shock", .main⟩, .addPhantom ⟨"shock", .main⟩ ⟨100, 0, none⟩, .setCommander "atraxa",
    .addCard ⟨"island", .main⟩, .addCard ⟨"island", .main⟩, .addCard ⟨"island", .sideboard⟩,
    .setCommander "island", .removeCard ⟨"shock", .main⟩, .addZone "ramp" "Ramp",
    .ignoreCard "shock", .ignoreCard "shock", .unignoreCard "opt"]

theorem sound_performAll_twoLeaders :
    let deck := (empty "deck" "Deck").performAll twoLeaders
    (∀ card ∈ deck.cards, card.slot ≠ ⟨"opt", .main⟩) ∧ deck.Sound ∧
      (deck.addCard ⟨"opt", .main⟩).LandsFree ⟨"opt", .main⟩ ∧
      (deck.setCommander "opt").LandsFree ⟨"opt", .main⟩ := by
  have absent : ∀ card ∈ ((empty "deck" "Deck").performAll twoLeaders).cards,
      card.slot ≠ ⟨"opt", .main⟩ := by
    decide +kernel
  obtain ⟨sound, added, led⟩ := sound_performAll_empty "deck" "Deck" twoLeaders
  exact ⟨absent, sound, added _ absent, led "opt"⟩

end Deck

end DeckBuilder
