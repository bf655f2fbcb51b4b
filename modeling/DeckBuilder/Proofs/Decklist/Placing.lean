import DeckBuilder.Proofs.Deck.FreeSpot
import DeckBuilder.Proofs.Decklist.Accounting
import DeckBuilder.Proofs.Sort.Codes

/-! # The cards after an import

An import keeps the cards that are no normal cards of the main deck, puts its commander into the
slot of the one before or on a free spot, and adds its cards on further free spots. Then all cards
are sorted by name, which keeps their order among equal names.
-/

namespace DeckBuilder

open scoped ExactCoordinates

/-! ## Cards of an import -/

/-- The cards that the import puts into the main deck. -/
def DeckImport.mainCards (imported : DeckImport) : List (Card × UInt32) :=
  imported.cards.filter fun entry => !imported.commander.any (·.id == entry.1.id)

namespace DeckCard

variable {α : Type}

/-- The card in a commander slot that another commander takes over. -/
def takenOverBy (card : DeckCard α) (commander : Card) : DeckCard α :=
  { card with
    cardId := commander.id, count := 1, version := commander.defaultVersion?, phantoms := [] }

/-- A commander in a slot of its own. -/
def ofCommander (commander : Card) (position : Position α) : DeckCard α :=
  ⟨commander.id, 1, .main, .commander, commander.defaultVersion?, position, []⟩

/-- A card of the main deck of an import, with its count. -/
def ofEntry (entry : Card × UInt32) (position : Position α) : DeckCard α :=
  ⟨entry.1.id, entry.2, .main, .normal, entry.1.defaultVersion?, position, []⟩

end DeckCard

namespace Deck

open DeckImport (alphaAndBeta)

variable {α : Type}

section

variable [Coordinate α]

/-- The cards that an import leaves in their slots, with its commander. -/
def ledCards (imported : DeckImport) (kept : List (DeckCard α)) : List (DeckCard α) :=
  match imported.commander with
  | some commander => placeCommander kept commander
  | none => kept

/-- The cards of a main deck as they are added, one after the other on free spots. -/
def addedCards (cards : List (DeckCard α)) : List (Card × UInt32) → List (DeckCard α)
  | [] => []
  | entry :: rest =>
    .ofEntry entry (freePosition cards) ::
      addedCards (cards ++ [.ofEntry entry (freePosition cards)]) rest

theorem foldl_placeCard (cards : List (DeckCard α)) (entries : List (Card × UInt32)) :
    entries.foldl placeCard cards = cards ++ addedCards cards entries := by
  induction entries generalizing cards with
  | nil => exact (List.append_nil cards).symm
  | cons entry rest ih =>
    rw [List.foldl_cons, ih, addedCards, List.append_cons]
    rfl

/-- **An import** puts its cards behind those that it keeps, and sorts all of them. -/
theorem applyImport_eq (deck : Deck α) (imported : DeckImport) (catalogue : Catalogue) :
    let led := ledCards imported (deck.cards.filter fun card => !card.isMainNormal)
    deck.applyImport imported catalogue =
      { deck with
        cards := sortByName catalogue (led ++ addedCards led imported.mainCards) } := by
  intro led
  rw [applyImport, ← DeckImport.mainCards, foldl_placeCard]
  rfl

/-- The spots of the cards that are added do not depend on the order of those that are there. -/
theorem addedCards_perm {first second : List (DeckCard α)} (same : first.Perm second)
    (entries : List (Card × UInt32)) : addedCards first entries = addedCards second entries := by
  induction entries generalizing first second with
  | nil => rfl
  | cons entry rest ih =>
    rw [addedCards, addedCards, freePosition_perm same, ih (same.append_right _)]

theorem exists_entry_of_mem_addedCards {cards : List (DeckCard α)}
    {entries : List (Card × UInt32)} {card : DeckCard α}
    (member : card ∈ addedCards cards entries) :
    ∃ entry ∈ entries, ∃ spot, card = .ofEntry entry (.free spot) := by
  induction entries generalizing cards with
  | nil => cases member
  | cons entry rest ih =>
    rcases List.mem_cons.mp member with rfl | later
    · exact ⟨entry, List.mem_cons_self, _, rfl⟩
    · obtain ⟨other, isOther, spot, same⟩ := ih later
      exact ⟨other, List.mem_cons_of_mem _ isOther, spot, same⟩

theorem isMainNormal_of_mem_addedCards {cards : List (DeckCard α)}
    {entries : List (Card × UInt32)} {card : DeckCard α}
    (member : card ∈ addedCards cards entries) : card.isMainNormal := by
  obtain ⟨entry, -, spot, rfl⟩ := exists_entry_of_mem_addedCards member
  rfl

end

/-! ## Sorting by name -/

/-- The name by which a card is sorted. -/
def sortName (catalogue : Catalogue) (card : DeckCard α) : String :=
  ((catalogue.get? card.cardId).map fun found => lowercase found.name).getD ""

theorem sortByName_perm (catalogue : Catalogue) (cards : List (DeckCard α)) :
    (sortByName catalogue cards).Perm cards :=
  List.mergeSort_perm _ _

/-- Cards can be dropped before sorting. -/
theorem filter_sortByName (catalogue : Catalogue) (cards : List (DeckCard α))
    (keep : DeckCard α → Bool) :
    (sortByName catalogue cards).filter keep = sortByName catalogue (cards.filter keep) :=
  OrderCode.mergeSort_filter cards keep

/-- Cards that come first can be sorted before. -/
theorem sortByName_append (catalogue : Catalogue) (first second : List (DeckCard α)) :
    sortByName catalogue (sortByName catalogue first ++ second) =
      sortByName catalogue (first ++ second) :=
  OrderCode.mergeSort_append first second

/-! ## Spots -/

/-- The cards that are placed lie on different spots, on which no other cards or phantoms lie. -/
structure Apart (others placed : List (DeckCard α)) : Prop where
  different : (placed.map (·.position.point)).Nodup
  free : ∀ card ∈ others, ∀ position ∈ card.placements,
    position.point ∉ placed.map (·.position.point)

theorem Apart.nil (others : List (DeckCard α)) : Apart others [] :=
  ⟨List.nodup_nil, fun _ _ _ _ => List.not_mem_nil⟩

/-- Cards can be placed after others have been. -/
theorem Apart.append {others early late : List (DeckCard α)} (first : Apart others early)
    (second : Apart (others ++ early) late) : Apart others (early ++ late) where
  different := by
    rw [List.map_append, List.nodup_append']
    refine ⟨first.different, second.different, fun spot isEarly isLate => ?_⟩
    obtain ⟨card, member, rfl⟩ := List.mem_map.mp isEarly
    exact second.free card (List.mem_append_right _ member) _ List.mem_cons_self isLate
  free := by
    intro card member position placed
    rw [List.map_append, List.mem_append, not_or]
    exact ⟨first.free card member position placed,
      second.free card (List.mem_append_left _ member) position placed⟩

section

variable [Ring α] [LinearOrder α] [IsStrictOrderedRing α]

theorem Apart.single {others : List (DeckCard α)} {card : DeckCard α}
    (lies : card.position = freePosition others) : Apart others [card] where
  different := List.nodup_singleton _
  free := by
    intro other member position placed same
    have here : position.point = (freePosition others).point := by
      rw [← lies]
      exact List.mem_singleton.mp same
    exact ne_of_not_isTaken (not_isTaken_freePosition others) member placed here

end

/-! ## The commander -/

section

variable [Ring α] [LinearOrder α] [IsStrictOrderedRing α]

end

/-! ## Imports -/

section

variable [Coordinate α]

/-- A commander is no normal card. -/
theorem not_isMainNormal_placeCommander {cards : List (DeckCard α)}
    (special : ∀ card ∈ cards, card.isMainNormal = false) (commander : Card) :
    ∀ card ∈ placeCommander cards commander, card.isMainNormal = false := by
  intro card member
  rw [placeCommander] at member
  split at member
  · rcases exists_of_mem_changeFirst member with before | ⟨other, -, leads, rfl⟩
    · exact special card before
    · have role : other.role = .commander := beq_iff_eq.mp leads
      simp [DeckCard.isMainNormal, role]
  · rcases List.mem_append.mp member with before | new
    · exact special card before
    · rw [List.mem_singleton.mp new]
      rfl

theorem not_isMainNormal_ledCards (imported : DeckImport) (cards : List (DeckCard α)) :
    ∀ card ∈ ledCards imported (cards.filter fun card => !card.isMainNormal),
      card.isMainNormal = false := by
  have special : ∀ card ∈ cards.filter (fun card => !card.isMainNormal),
      card.isMainNormal = false := by
    intro card member
    simpa using (List.mem_filter.mp member).2
  rw [ledCards]
  split
  · exact not_isMainNormal_placeCommander special _
  · exact special

end

/-- What is no normal card of the main deck can be told from the main deck after it. -/
theorem filter_not_isMainNormal_append {special main : List (DeckCard α)}
    (noNormal : ∀ card ∈ special, card.isMainNormal = false)
    (allNormal : ∀ card ∈ main, card.isMainNormal) :
    (special ++ main).filter (fun card => !card.isMainNormal) = special := by
  have kept : special.filter (fun card => !card.isMainNormal) = special :=
    List.filter_eq_self.mpr fun card member => by simp [noNormal card member]
  have dropped : main.filter (fun card => !card.isMainNormal) = [] :=
    List.filter_eq_nil_iff.mpr fun card member => by simp [allNormal card member]
  rw [List.filter_append, kept, dropped, List.append_nil]

section

variable [Ring α] [LinearOrder α] [IsStrictOrderedRing α]

end

end Deck

end DeckBuilder
