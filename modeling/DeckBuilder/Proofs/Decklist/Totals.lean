import DeckBuilder.DistinctBy
import DeckBuilder.Proofs.Decklist.Accounting

/-! # The counts of an import

Copies of a card are cut to its limit and to the largest count each time a line adds to them. The
outcome is the same as if all copies that count were added up first, and the sum were cut once.
-/

namespace DeckBuilder

/-! ## Cutting sums -/

/-- The most of a number of copies that a limit and the size of counts let through. -/
def CopyLimit.clamp : CopyLimit → Nat → Nat
  | limited most, total => min most.toNat (min (UInt32.size - 1) total)
  | unlimited, total => min (UInt32.size - 1) total

namespace CopyLimit

theorem toNat_cut (limit : CopyLimit) (copies : UInt32) :
    (limit.cut copies).toNat = limit.clamp copies.toNat := by
  have small : copies.toNat ≤ UInt32.size - 1 := Nat.le_sub_one_of_lt copies.toNat_lt
  cases limit with
  | unlimited => rw [cut, clamp, Nat.min_eq_right small]
  | limited most =>
    rw [cut, clamp, Nat.min_eq_right small]
    split
    · rename_i within
      exact (Nat.min_eq_right (UInt32.le_iff_toNat_le.mp within)).symm
    · rename_i exceeds
      have less := UInt32.lt_iff_toNat_lt.mp (UInt32.not_le.mp exceeds)
      exact (Nat.min_eq_left (Nat.le_of_lt less)).symm

/-- Copies can be added before what was there is cut. -/
theorem toNat_cut_addCounts {limit : CopyLimit} {count : UInt32} {total : Nat}
    (isTotal : count.toNat = limit.clamp total) (copies : UInt32) :
    (limit.cut (addCounts count copies)).toNat = limit.clamp (total + copies.toNat) := by
  have sum : (addCounts count copies).toNat =
      min (UInt32.size - 1) (count.toNat + copies.toNat) := by
    rw [addCounts, UInt32.toNat_ofNat_of_lt' ?_, Nat.min_comm]
    exact Nat.lt_of_le_of_lt (Nat.min_le_right ..) (by decide)
  rw [toNat_cut, sum, isTotal]
  cases limit <;> simp only [clamp] <;> omega

end CopyLimit

/-! ## Lines that count -/

namespace CardLookup

/-- The card that leads after decks. -/
def leaderAfter? (lookup : CardLookup) (decks : List ParsedDeck) : Option Card :=
  (lookup.cardsOf (decks.flatMap (·.entries .commander))).getLast?

theorem leaderAfter?_append_singleton (lookup : CardLookup) (earlier : List ParsedDeck)
    (deck : ParsedDeck) :
    lookup.leaderAfter? (earlier ++ [deck]) =
      (lookup.cardsOf (deck.entries .commander)).getLast?.or (lookup.leaderAfter? earlier) := by
  rw [leaderAfter?, leaderAfter?, List.flatMap_append, List.flatMap_singleton, cardsOf,
    List.filterMap_append, List.getLast?_append]
  rfl

/-- The card of a line of the main deck with the copies that the line adds. The line counts if its
name means a card that does not lead. -/
def counted? (lookup : CardLookup) (leader : Option Card) (line : DecklistLine) :
    Option (Card × UInt32) :=
  (lookup.find? line.name).bind fun card =>
    if leader.any (·.id == card.id) then none else some (card, line.count)

/-- What is counted in decks that come after others. In each main deck this depends on the card that
leads after the commander section of the deck. -/
def countedAfter (lookup : CardLookup) (earlier : List ParsedDeck) :
    List ParsedDeck → List (Card × UInt32)
  | [] => []
  | deck :: later =>
    (deck.entries .deck).filterMap (lookup.counted? (lookup.leaderAfter? (earlier ++ [deck]))) ++
      lookup.countedAfter (earlier ++ [deck]) later

end CardLookup

/-- The copies of a card that are counted. -/
def totalCopies (id : String) : List (Card × UInt32) → Nat
  | [] => 0
  | (card, copies) :: rest => (if card.id = id then copies.toNat else 0) + totalCopies id rest

/-- A line adds to the copies of its card, and of no other. -/
theorem totalCopies_append_singleton (id : String) (counted : List (Card × UInt32)) (card : Card)
    (copies : UInt32) :
    totalCopies id (counted ++ [(card, copies)]) =
      totalCopies id counted + if card.id = id then copies.toNat else 0 := by
  induction counted with
  | nil => simp [totalCopies]
  | cons first rest ih => rw [List.cons_append, totalCopies, totalCopies, ih, Nat.add_assoc]

theorem totalCopies_eq_zero {id : String} {counted : List (Card × UInt32)}
    (fresh : id ∉ (counted.map (·.1)).map (·.id)) : totalCopies id counted = 0 := by
  induction counted with
  | nil => rfl
  | cons first rest ih =>
    rw [List.map_cons, List.map_cons, List.mem_cons, not_or] at fresh
    rw [totalCopies, if_neg (Ne.symm fresh.1), ih fresh.2]

namespace DeckImport

variable {imported : DeckImport} {counted : List (Card × UInt32)} {cards : List Card}

/-- After counting copies of a card an entry is that of another card, or the copies have been added
to it, or it is new. -/
theorem count_cases (once : (imported.cards.map (·.1.id)).Nodup) {card : Card} {copies : UInt32}
    {entry : Card × UInt32} (member : entry ∈ (imported.count card copies).cards) :
    (entry ∈ imported.cards ∧ card.id ≠ entry.1.id) ∨
      (∃ before ∈ imported.cards, before.1.id = card.id ∧
        entry = (before.1, card.allowedCopies.cut (addCounts before.2 copies))) ∨
      (card.id ∉ imported.cards.map (·.1.id) ∧ entry = (card, card.allowedCopies.cut copies)) := by
  rw [count] at member
  split at member
  · rw [changeFirst_eq_map once] at member
    obtain ⟨before, listed, isEntry⟩ := List.mem_map.mp member
    by_cases same : before.1.id = card.id
    · rw [if_pos (beq_iff_eq.mpr same)] at isEntry
      exact .inr (.inl ⟨before, listed, same, isEntry.symm⟩)
    · rw [if_neg (mt beq_iff_eq.mp same)] at isEntry
      subst isEntry
      exact .inl ⟨listed, Ne.symm same⟩
  · rename_i absent
    have fresh : card.id ∉ imported.cards.map (·.1.id) := by
      simpa using absent
    rcases List.mem_append.mp member with before | new
    · exact .inl ⟨before, fun same => fresh (List.mem_map.mpr ⟨entry, before, same.symm⟩)⟩
    · exact .inr (.inr ⟨fresh, List.mem_singleton.mp new⟩)

/-- The cards of an import are those that have been counted, in the order in which they were counted
first, each with all of its copies as far as its limit lets them through. -/
structure Tallies (cards : List Card) (imported : DeckImport) (counted : List (Card × UInt32)) :
    Prop where
  supplied : ∀ entry ∈ counted, entry.1 ∈ cards
  listed : imported.cards.map (·.1) = distinctBy (·.id) (counted.map (·.1))
  totals : ∀ entry ∈ imported.cards,
    entry.2.toNat = entry.1.allowedCopies.clamp (totalCopies entry.1.id counted)

namespace Tallies

theorem congr {other : DeckImport} (tallies : Tallies cards imported counted)
    (same : other.cards = imported.cards) : Tallies cards other counted :=
  ⟨tallies.supplied, same ▸ tallies.listed, same ▸ tallies.totals⟩

theorem map_id (tallies : Tallies cards imported counted) :
    imported.cards.map (·.1.id) = (distinctBy (·.id) (counted.map (·.1))).map (·.id) := by
  rw [← tallies.listed, List.map_map]
  rfl

theorem nodup_id (tallies : Tallies cards imported counted) :
    (imported.cards.map (·.1.id)).Nodup :=
  tallies.map_id ▸ nodup_distinctBy _

theorem listed_iff (tallies : Tallies cards imported counted) {id : String} :
    id ∈ imported.cards.map (·.1.id) ↔ id ∈ (counted.map (·.1)).map (·.id) := by
  rw [tallies.map_id, map_distinctBy, List.mem_eraseDups]

/-- A card that is listed and a card that is supplied are one card if they have the same ID. -/
theorem eq_of_id (tallies : Tallies cards imported counted)
    (distinct : (cards.map (·.id)).Nodup) {card : Card} (isCard : card ∈ cards)
    {entry : Card × UInt32} (listed : entry ∈ imported.cards) (same : entry.1.id = card.id) :
    entry.1 = card := by
  have first : entry.1 ∈ distinctBy (·.id) (counted.map (·.1)) :=
    tallies.listed ▸ List.mem_map_of_mem listed
  obtain ⟨other, isCounted, isEntry⟩ := List.mem_map.mp ((distinctBy_sublist _).subset first)
  have supplied : entry.1 ∈ cards := isEntry ▸ tallies.supplied other isCounted
  exact List.inj_on_of_nodup_map distinct supplied isCard same

/-- **Counting copies** keeps the tally. -/
theorem count (tallies : Tallies cards imported counted) (distinct : (cards.map (·.id)).Nodup)
    {card : Card} (isCard : card ∈ cards) (copies : UInt32) :
    Tallies cards (imported.count card copies) (counted ++ [(card, copies)]) where
  supplied := by
    intro entry member
    rcases List.mem_append.mp member with before | new
    · exact tallies.supplied entry before
    · rwa [List.mem_singleton.mp new]
  listed := by
    rw [List.map_append, List.map_singleton, distinctBy_append_singleton, ← tallies.listed,
      map_fst_count]
    exact if_congr tallies.listed_iff rfl rfl
  totals := by
    intro entry member
    rw [totalCopies_append_singleton]
    rcases count_cases tallies.nodup_id member with
      ⟨listed, other⟩ | ⟨before, listed, same, rfl⟩ | ⟨fresh, rfl⟩
    · rw [if_neg other]
      exact tallies.totals entry listed
    · have total := tallies.totals before listed
      rw [tallies.eq_of_id distinct isCard listed same] at total ⊢
      dsimp only
      rw [if_pos rfl, CopyLimit.toNat_cut_addCounts total]
    · dsimp only
      rw [if_pos rfl, totalCopies_eq_zero (mt tallies.listed_iff.mpr fresh), Nat.zero_add,
        CopyLimit.toNat_cut]

theorem addMain (tallies : Tallies cards imported counted) (distinct : (cards.map (·.id)).Nodup)
    (line : DecklistLine) :
    Tallies cards (addMain (.ofCards cards) imported line)
      (counted ++ ((CardLookup.ofCards cards).counted? imported.commander line).toList) := by
  rw [DeckImport.addMain, CardLookup.counted?]
  cases found : (CardLookup.ofCards cards).find? line.name with
  | none =>
    have missed : Tallies cards (imported.miss line.name) counted := tallies.congr rfl
    simpa using missed
  | some card =>
    rw [Option.bind_some]
    dsimp only
    split
    · simpa using tallies
    · exact tallies.count distinct (CardLookup.mem_of_find? found) line.count

theorem foldl_addMain (tallies : Tallies cards imported counted)
    (distinct : (cards.map (·.id)).Nodup) (lines : List DecklistLine) :
    Tallies cards (lines.foldl (DeckImport.addMain (.ofCards cards)) imported)
      (counted ++ lines.filterMap ((CardLookup.ofCards cards).counted? imported.commander)) := by
  induction lines generalizing imported counted with
  | nil => simpa using tallies
  | cons line rest ih =>
    have onwards := ih (tallies.addMain distinct line)
    rw [commander_addMain, List.append_assoc] at onwards
    rw [List.foldl_cons, List.filterMap_cons]
    cases counts : (CardLookup.ofCards cards).counted? imported.commander line with
    | none => simpa [counts] using onwards
    | some entry => simpa [counts] using onwards

/-- The main deck of a deck is counted under the card that leads after its commander section. -/
theorem addDeck (tallies : Tallies cards imported counted) (distinct : (cards.map (·.id)).Nodup)
    {earlier : List ParsedDeck}
    (leads : imported.commander = (CardLookup.ofCards cards).leaderAfter? earlier)
    (deck : ParsedDeck) :
    (addDeck (.ofCards cards) imported deck).commander =
        (CardLookup.ofCards cards).leaderAfter? (earlier ++ [deck]) ∧
      Tallies cards (addDeck (.ofCards cards) imported deck)
        (counted ++ (deck.entries .deck).filterMap ((CardLookup.ofCards cards).counted?
          ((CardLookup.ofCards cards).leaderAfter? (earlier ++ [deck])))) := by
  have leader : (DeckImport.addDeck (.ofCards cards) imported deck).commander =
      (CardLookup.ofCards cards).leaderAfter? (earlier ++ [deck]) := by
    rw [commander_addDeck, leads, CardLookup.leaderAfter?_append_singleton]
  refine ⟨leader, ?_⟩
  rw [DeckImport.addDeck, commander_foldl_addMain] at leader
  rw [DeckImport.addDeck, ← leader]
  refine foldl_addMain (tallies.congr ?_) distinct deck.deck
  exact Lists.foldl_kept (·.cards) (fun state line _ => cards_addCommander state line) imported

theorem foldl_addDeck (tallies : Tallies cards imported counted)
    (distinct : (cards.map (·.id)).Nodup) {earlier : List ParsedDeck}
    (leads : imported.commander = (CardLookup.ofCards cards).leaderAfter? earlier)
    (decks : List ParsedDeck) :
    Tallies cards (decks.foldl (DeckImport.addDeck (.ofCards cards)) imported)
      (counted ++ (CardLookup.ofCards cards).countedAfter earlier decks) := by
  induction decks generalizing imported counted earlier with
  | nil => simpa [CardLookup.countedAfter] using tallies
  | cons deck later ih =>
    obtain ⟨leader, onwards⟩ := tallies.addDeck distinct leads deck
    rw [List.foldl_cons, CardLookup.countedAfter, ← List.append_assoc]
    exact ih onwards leader

end Tallies

theorem tallies_ofParsed (distinct : (cards.map (·.id)).Nodup) (parsed : ParsedDecklist) :
    Tallies cards (ofParsed parsed (.ofCards cards))
      ((CardLookup.ofCards cards).countedAfter [] parsed.decks) := by
  have nothing : Tallies cards (empty parsed.errors) [] :=
    ⟨List.forall_mem_nil _, rfl, List.forall_mem_nil _⟩
  have leads : (empty parsed.errors).commander = (CardLookup.ofCards cards).leaderAfter? [] := rfl
  have tallies := nothing.foldl_addDeck distinct leads parsed.decks
  rw [List.nil_append] at tallies
  refine tallies.congr ?_
  rw [ofParsed]

/-- An import is what a decklist comes to. -/
structure SumsUp (imported : DeckImport) (lookup : CardLookup) (parsed : ParsedDecklist) :
    Prop where
  /-- No card is listed twice. -/
  once : (imported.cards.map (·.1.id)).Nodup
  /-- The cards that have been counted are listed in the order of the first lines that count. -/
  listed : imported.cards.map (·.1) =
    distinctBy (·.id) ((lookup.countedAfter [] parsed.decks).map (·.1))
  /-- Every card has the sum of the counts of its lines, cut to its limit and to the largest
  count. -/
  counts : ∀ entry ∈ imported.cards, entry.2.toNat =
    entry.1.allowedCopies.clamp (totalCopies entry.1.id (lookup.countedAfter [] parsed.decks))
  /-- The last commander line whose name means a card gives the commander. -/
  commander : imported.commander = lookup.leaderAfter? parsed.decks
  /-- Names that mean no card are in order, and no name is noted twice. -/
  sorted : imported.unmatched.Pairwise OrderKey.Before
  /-- The names that mean no card are noted, those of commanders with a label. -/
  unmatched : ∀ name, name ∈ imported.unmatched ↔
    (∃ entry ∈ parsed.decks.flatMap (·.entries .deck),
      lookup.find? entry.name = none ∧ entry.name = name) ∨
      ∃ entry ∈ parsed.decks.flatMap (·.entries .commander),
        lookup.find? entry.name = none ∧ "Commander: " ++ entry.name = name
  errors : imported.errors = parsed.errors

/-- **Merging and cutting line by line give the sums.** -/
theorem sumsUp_ofParsed (distinct : (cards.map (·.id)).Nodup) (parsed : ParsedDecklist) :
    (ofParsed parsed (.ofCards cards)).SumsUp (.ofCards cards) parsed := by
  have tallies := tallies_ofParsed distinct parsed
  refine ⟨tallies.nodup_id, tallies.listed, tallies.totals, commander_ofParsed parsed _, ?_,
    fun name => mem_unmatched_ofParsed parsed _, errors_ofParsed parsed _⟩
  rw [ofParsed]
  exact SortedMap.pairwise_distinctSorted _

def island : Card :=
  { bareCard "i" "Island" with typeLine := "Basic Land" }

/-- Alpha leads the first two decks and Beta the third one. The copies of islands are more than can
be counted. -/
def threeDecks : ParsedDecklist :=
  ⟨[⟨[⟨"Alpha", 1⟩], [], [⟨"Alpha", 2⟩, ⟨"Beta", 3⟩, ⟨"Gamma", 1⟩], []⟩,
    ⟨[], [], [⟨"Alpha", 1⟩, ⟨"Island", 4294967290⟩], []⟩,
    ⟨[⟨"Beta", 1⟩, ⟨"Gamma", 1⟩], [],
      [⟨"Island", 9⟩, ⟨"Beta", 1⟩, ⟨"Alpha", 2⟩, ⟨"Gamma", 2⟩], []⟩],
    []⟩

theorem sumsUp_threeDecks :
    let cards := island :: alphaAndBeta.cards
    let imported := ofParsed threeDecks (.ofCards cards)
    (cards.map (·.id)).Nodup ∧ imported.SumsUp (.ofCards cards) threeDecks ∧
      imported.cards.map (fun entry => (entry.1.id, entry.2)) =
        [("b", 1), ("i", 4294967295), ("a", 1)] ∧
      imported.commander.map (·.id) = some "b" ∧
      imported.unmatched = ["Commander: Gamma", "Gamma"] := by
  intro cards imported
  have distinct : (cards.map (·.id)).Nodup := by decide +kernel
  exact ⟨distinct, sumsUp_ofParsed distinct threeDecks, by decide +kernel⟩

end DeckImport

end DeckBuilder
