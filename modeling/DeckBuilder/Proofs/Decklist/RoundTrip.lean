import DeckBuilder.Decklist.Export
import DeckBuilder.Decklist.Import
import DeckBuilder.Proofs.Decklist.Lines
import DeckBuilder.Proofs.Decklist.Naming
import DeckBuilder.Proofs.Decklist.Sections

/-! # Decklists of decks

The decklist of a deck is imported as the commander and the cards that it was written from. Names
have to be written so that they are read back and mean the card, and counts have to keep to the copy
limits. The header of the main deck starts a second deck after a commander.
-/

namespace DeckBuilder

/-! ## Cards of a catalogue -/

namespace Catalogue

variable {catalogue : Catalogue}

theorem mem_of_get? {id : String} {card : Card} (found : catalogue.get? id = some card) :
    card ∈ catalogue.cards ∧ card.id = id :=
  ⟨List.mem_reverse.mp (List.mem_of_find?_eq_some found), by simpa using List.find?_some found⟩

theorem get?_eq_find? (distinct : (catalogue.cards.map (·.id)).Nodup) (id : String) :
    catalogue.get? id = catalogue.cards.find? (·.id == id) :=
  Lists.find?_reverse distinct id

theorem get?_id (distinct : (catalogue.cards.map (·.id)).Nodup) {card : Card}
    (supplied : card ∈ catalogue.cards) : catalogue.get? card.id = some card := by
  rw [get?_eq_find? distinct]
  exact find?_eq_some_of_mem distinct supplied

/-- Where IDs are distinct, a look-up finds the card of the catalogue that has the ID. -/
theorem get?_eq_some_iff (distinct : (catalogue.cards.map (·.id)).Nodup) {id : String}
    {card : Card} : catalogue.get? id = some card ↔ card ∈ catalogue.cards ∧ card.id = id := by
  refine ⟨mem_of_get?, ?_⟩
  rintro ⟨supplied, rfl⟩
  exact get?_id distinct supplied

end Catalogue

/-! ## What a decklist lists -/

/-- A line for copies of a card. -/
def listedLine (entry : Card × UInt32) : DecklistLine :=
  ⟨exportName entry.1.name, entry.2⟩

namespace CopyLimit

/-- The limit admits a count. -/
inductive Admits : CopyLimit → UInt32 → Prop where
  | limited {most count : UInt32} (within : count ≤ most) : Admits (.limited most) count
  | unlimited (count : UInt32) : Admits .unlimited count

instance : (limit : CopyLimit) → (count : UInt32) → Decidable (limit.Admits count)
  | limited most, count =>
    if within : count ≤ most then isTrue (.limited within)
    else isFalse fun | .limited fits => within fits
  | unlimited, count => isTrue (.unlimited count)

theorem cut_eq_self {limit : CopyLimit} {count : UInt32} (admits : limit.Admits count) :
    limit.cut count = count := by
  cases admits with
  | limited within => exact if_pos within
  | unlimited => rfl

end CopyLimit

/-- The name of the card can be written in a decklist of the catalogue: it is read back, and means
the card. -/
@[mk_iff]
structure Card.IsListable (card : Card) (catalogue : Catalogue) : Prop where
  named : exportName card.name ≠ ""
  singleLine : '\n' ∉ (exportName card.name).toList
  noNote : ¬ DecklistLine.EndsInNote (exportName card.name).toList
  meant : ∃ found ∈ (CardLookup.ofCards catalogue.cards).find? (exportName card.name),
    found.id = card.id

instance (card : Card) (catalogue : Catalogue) : Decidable (card.IsListable catalogue) :=
  decidable_of_iff _ (card.isListable_iff catalogue).symm

namespace Deck

variable {α : Type} {deck : Deck α} {catalogue : Catalogue}

/-- The card of the catalogue that has the ID of the commander. -/
def listedCommander? (deck : Deck α) (catalogue : Catalogue) : Option Card :=
  deck.commander?.bind fun slot => catalogue.cards.find? (·.id == slot.cardId)

/-- The cards of the catalogue that have the IDs of the normal cards of the main deck, with the
counts of these. -/
def listedCards (deck : Deck α) (catalogue : Catalogue) : List (Card × UInt32) :=
  (deck.cards.filter (·.isMainNormal)).filterMap fun slot =>
    (catalogue.cards.find? (·.id == slot.cardId)).map fun card => (card, slot.count)

/-- The deck can be written as a decklist of the catalogue. -/
@[mk_iff]
structure IsListable (deck : Deck α) (catalogue : Catalogue) : Prop where
  slots : (deck.cards.map (·.slot)).Nodup
  commander : ∀ slot ∈ deck.commander?, ∀ card ∈ catalogue.cards, card.id = slot.cardId →
    card.IsListable catalogue
  cards : ∀ slot ∈ deck.cards, slot.isMainNormal → ∀ card ∈ catalogue.cards,
    card.id = slot.cardId →
      card.IsListable catalogue ∧ 1 ≤ slot.count ∧ card.allowedCopies.Admits slot.count
  apart : ∀ commander ∈ deck.commander?, ∀ card ∈ deck.cards, card.isMainNormal →
    card.cardId ≠ commander.cardId

instance (deck : Deck α) (catalogue : Catalogue) : Decidable (deck.IsListable catalogue) :=
  decidable_of_iff _ (deck.isListable_iff catalogue).symm

section

variable (distinct : (catalogue.cards.map (·.id)).Nodup)

include distinct

theorem mem_listedCommander?_iff {card : Card} :
    card ∈ deck.listedCommander? catalogue ↔
      card ∈ catalogue.cards ∧ ∃ slot ∈ deck.commander?, card.id = slot.cardId := by
  simp only [listedCommander?, ← Catalogue.get?_eq_find? distinct, Option.mem_def,
    Option.bind_eq_some_iff, Catalogue.get?_eq_some_iff distinct]
  constructor
  · rintro ⟨slot, isSlot, supplied, same⟩
    exact ⟨supplied, slot, isSlot, same⟩
  · rintro ⟨supplied, slot, isSlot, same⟩
    exact ⟨slot, isSlot, supplied, same⟩

theorem mem_listedCards_iff {entry : Card × UInt32} :
    entry ∈ deck.listedCards catalogue ↔
      entry.1 ∈ catalogue.cards ∧ ∃ slot ∈ deck.cards, slot.isMainNormal ∧
        entry.1.id = slot.cardId ∧ entry.2 = slot.count := by
  simp only [listedCards, ← Catalogue.get?_eq_find? distinct, List.mem_filterMap, List.mem_filter,
    Option.map_eq_some_iff, Catalogue.get?_eq_some_iff distinct]
  constructor
  · rintro ⟨slot, ⟨isSlot, normal⟩, card, ⟨supplied, same⟩, rfl⟩
    exact ⟨supplied, slot, isSlot, normal, same, rfl⟩
  · rintro ⟨supplied, slot, isSlot, normal, same, counted⟩
    exact ⟨slot, ⟨isSlot, normal⟩, entry.1, ⟨supplied, same⟩, Prod.ext rfl counted.symm⟩

theorem IsListable.listedCommander (listable : deck.IsListable catalogue) :
    ∀ card ∈ deck.listedCommander? catalogue, card.IsListable catalogue := by
  intro card leads
  obtain ⟨supplied, slot, isSlot, same⟩ := (mem_listedCommander?_iff distinct).mp leads
  exact listable.commander slot isSlot card supplied same

theorem IsListable.listedCards (listable : deck.IsListable catalogue) :
    ∀ entry ∈ deck.listedCards catalogue, entry.1.IsListable catalogue ∧ 1 ≤ entry.2 ∧
      entry.1.allowedCopies.Admits entry.2 := by
  intro entry isListed
  obtain ⟨supplied, slot, isSlot, normal, same, counted⟩ :=
    (mem_listedCards_iff distinct).mp isListed
  rw [counted]
  exact listable.cards slot isSlot normal entry.1 supplied same

end

/-! ## The text -/

/-- The lines of the commander section, with the blank line that ends it. -/
def commanderLines (commander : Option Card) : List (List Char) :=
  match commander with
  | some card => ["Commander".toList, (listedLine (card, 1)).written, []]
  | none => []

/-- All lines of the decklist. -/
def decklistLines (deck : Deck α) (catalogue : Catalogue) : List (List Char) :=
  commanderLines (deck.listedCommander? catalogue) ++
    "Deck".toList :: ((deck.listedCards catalogue).map listedLine).map (·.written)

theorem toList_exportLine (count : UInt32) (card : Card) :
    (exportLine count.toNat card.name).toList = (listedLine (card, count)).written ++ ['\n'] := by
  simp [exportLine, listedLine, DecklistLine.written, decimal]

theorem filter_commanderLines (commander : Option Card) :
    ((commanderLines commander).filter fun line => !line.isEmpty) =
      commander.toList.flatMap fun card =>
        ["Commander".toList, (listedLine (card, 1)).written] := by
  cases commander with
  | none => rfl
  | some card => simp [commanderLines, DecklistLine.written_ne_nil]

theorem isReadable_listedLine {card : Card} (listable : card.IsListable catalogue)
    {count : UInt32} (counted : 1 ≤ count) : (listedLine (card, count)).IsReadable where
  named := by simpa [listedLine] using listable.named
  trimmed := by
    rw [listedLine, exportName, Card.frontSide, String.toList_ofList]
    exact Text.trimmed_trim _
  noNote := listable.noNote
  counted := counted

section

variable (distinct : (catalogue.cards.map (·.id)).Nodup)

include distinct

theorem toList_exportCommander :
    (deck.exportCommander catalogue).toList =
      (commanderLines (deck.listedCommander? catalogue)).flatMap (· ++ ['\n']) := by
  simp only [exportCommander, Catalogue.get?_eq_find? distinct]
  rw [← listedCommander?]
  cases deck.listedCommander? catalogue with
  | none => rfl
  | some card =>
    have line := toList_exportLine 1 card
    rw [UInt32.toNat_one] at line
    simp [commanderLines, line]

theorem exportMain_eq :
    deck.exportMain catalogue =
      (deck.listedCards catalogue).map fun entry => exportLine entry.2.toNat entry.1.name := by
  rw [exportMain, Deck.listedCards, List.map_filterMap]
  simp only [Catalogue.get?_eq_find? distinct, Option.map_map, Function.comp_def]

theorem toList_decklist :
    (deck.decklist catalogue).toList =
      (deck.decklistLines catalogue).flatMap (· ++ ['\n']) := by
  rw [decklist, String.toList_append, String.toList_append, toList_exportCommander distinct,
    exportMain_eq distinct, String.toList_join, decklistLines, List.flatMap_append,
    List.flatMap_cons, List.flatMap_map, List.flatMap_map, List.flatMap_map, List.append_assoc]
  simp only [toList_exportLine]
  rfl

/-! ## Reading the text -/

/-- The lines of a listable deck are trimmed, and none is broken. -/
theorem trimmed_of_mem_decklistLines (listable : deck.IsListable catalogue) {line : List Char}
    (member : line ∈ deck.decklistLines catalogue) : Text.Trimmed line ∧ '\n' ∉ line := by
  have plain : ∀ line ∈ ["Commander".toList, [], "Deck".toList],
      Text.Trimmed line ∧ '\n' ∉ line := by
    decide
  have entry {card : Card} (listable : card.IsListable catalogue) {count : UInt32}
      (counted : 1 ≤ count) : Text.Trimmed (listedLine (card, count)).written ∧
        '\n' ∉ (listedLine (card, count)).written :=
    ⟨DecklistLine.trimmed_written (isReadable_listedLine listable counted),
      DecklistLine.lineFeed_not_mem_written listable.singleLine⟩
  rw [decklistLines, List.mem_append, List.mem_cons, List.map_map, List.mem_map] at member
  rcases member with led | rfl | ⟨⟨card, count⟩, isListed, rfl⟩
  · cases leader : deck.listedCommander? catalogue with
    | none =>
      rw [leader] at led
      cases led
    | some card =>
      rw [leader, commanderLines, List.mem_cons, List.mem_cons, List.mem_singleton] at led
      rcases led with rfl | rfl | rfl
      · exact plain _ (by decide)
      · exact entry (listable.listedCommander distinct card leader) (by decide)
      · exact plain _ (by decide)
  · exact plain _ (by decide)
  · obtain ⟨listableCard, counted, -⟩ := listable.listedCards distinct _ isListed
    exact entry listableCard counted

theorem lines_decklist (listable : deck.IsListable catalogue) :
    ParsedDecklist.lines (deck.decklist catalogue) =
      ((deck.listedCommander? catalogue).toList.flatMap fun card =>
        ["Commander".toList, (listedLine (card, 1)).written]) ++
          "Deck".toList :: ((deck.listedCards catalogue).map listedLine).map (·.written) := by
  have trimmed : (deck.decklistLines catalogue).map Text.trim = deck.decklistLines catalogue :=
    List.map_congr_left (fun line member => Text.trim_eq_self
      (trimmed_of_mem_decklistLines distinct listable member).1) |>.trans (List.map_id _)
  have filled : ∀ line ∈ "Deck".toList :: ((deck.listedCards catalogue).map listedLine).map
      (·.written), (!line.isEmpty) = true := by
    rw [List.forall_mem_cons]
    refine ⟨rfl, fun line member => ?_⟩
    obtain ⟨entry, -, rfl⟩ := List.mem_map.mp member
    simpa using entry.written_ne_nil
  rw [ParsedDecklist.lines, toList_decklist distinct, Text.splitWhere_flatMap_lineFeed
    fun line member => (trimmed_of_mem_decklistLines distinct listable member).2, List.map_append,
    trimmed, List.filter_append, decklistLines, List.filter_append, filter_commanderLines,
    List.filter_eq_self.mpr filled]
  exact List.append_nil _

end

/-- The decks that are read: one for the commander and one for the main deck, if it has cards. -/
def readDecks (commander : Option Card) (cards : List (Card × UInt32)) : List ParsedDeck :=
  commander.toList.map (fun card => ⟨[listedLine (card, 1)], [], [], []⟩) ++
    if cards.isEmpty then [] else [⟨[], [], cards.map listedLine, []⟩]

end Deck

namespace ParsedDecklist

/-- Entries are added to the main deck in their order. -/
theorem foldl_line_written {reading : Reading} (inDeck : reading.part = .deck)
    {entries : List DecklistLine} (readable : ∀ entry ∈ entries, entry.IsReadable) :
    (entries.map (·.written)).foldl Reading.line reading =
      { reading with
        current := { reading.current with deck := reading.current.deck ++ entries } } := by
  induction entries generalizing reading with
  | nil => simp
  | cons entry rest ih =>
    obtain ⟨here, later⟩ := List.forall_mem_cons.mp readable
    rw [List.map_cons, List.foldl_cons,
      Reading.line_of_entry (DecklistLine.ofHeader?_written entry)
        (DecklistLine.parse?_written here), inDeck, ih rfl later]
    simp [ParsedDeck.add]

end ParsedDecklist

namespace Deck

variable {α : Type} {deck : Deck α} {catalogue : Catalogue}

/-- The header of the main deck ends the deck that the commander is in. -/
theorem foldl_line_opening {commander : Option Card}
    (listable : ∀ card ∈ commander, card.IsListable catalogue) :
    ((commander.toList.flatMap fun card =>
        ["Commander".toList, (listedLine (card, 1)).written]) ++ ["Deck".toList]).foldl
          ParsedDecklist.Reading.line .start =
      ⟨⟨commander.toList.map fun card => ⟨[listedLine (card, 1)], [], [], []⟩, []⟩, .empty,
        .deck⟩ := by
  have commanderHeader : DecklistSection.ofHeader? "Commander".toList = some .commander := by
    decide +kernel
  have deckHeader : DecklistSection.ofHeader? "Deck".toList = some .deck := by
    decide +kernel
  cases commander with
  | none =>
    rw [Option.toList_none, List.flatMap_nil, List.nil_append, List.foldl_cons, List.foldl_nil,
      ParsedDecklist.Reading.line_of_header deckHeader]
    rfl
  | some card =>
    have readable := isReadable_listedLine (listable card rfl) (show 1 ≤ 1 by decide)
    rw [Option.toList_some, List.flatMap_singleton, List.foldl_append, List.foldl_cons,
      List.foldl_cons, List.foldl_nil, List.foldl_cons, List.foldl_nil,
      ParsedDecklist.Reading.line_of_header commanderHeader, ParsedDecklist.Reading.line_of_entry
        (DecklistLine.ofHeader?_written _) (DecklistLine.parse?_written readable),
      ParsedDecklist.Reading.line_of_header deckHeader]
    rfl

theorem parsed_decklist (distinct : (catalogue.cards.map (·.id)).Nodup)
    (listable : deck.IsListable catalogue) :
    ParsedDecklist.ofText (deck.decklist catalogue) =
      ⟨readDecks (deck.listedCommander? catalogue) (deck.listedCards catalogue), []⟩ := by
  have readable : ∀ entry ∈ (deck.listedCards catalogue).map listedLine, entry.IsReadable := by
    intro entry member
    obtain ⟨listed, isListed, rfl⟩ := List.mem_map.mp member
    obtain ⟨listableCard, counted, -⟩ := listable.listedCards distinct _ isListed
    exact isReadable_listedLine listableCard counted
  rw [ParsedDecklist.ofText, lines_decklist distinct listable, List.append_cons,
    List.foldl_append, foldl_line_opening (listable.listedCommander distinct),
    ParsedDecklist.foldl_line_written rfl readable, readDecks]
  cases deck.listedCards catalogue <;>
    simp [ParsedDecklist.Reading.finish, ParsedDeck.empty, ParsedDeck.isEmpty]

end Deck

/-! ## Resolving the entries -/

/-- In a catalogue with distinct IDs a written name means just the card. -/
theorem Card.IsListable.find?_eq {card : Card} {catalogue : Catalogue}
    (listable : card.IsListable catalogue) (distinct : (catalogue.cards.map (·.id)).Nodup)
    (member : card ∈ catalogue.cards) :
    (CardLookup.ofCards catalogue.cards).find? (exportName card.name) = some card := by
  obtain ⟨found, isFound, same⟩ := listable.meant
  rw [isFound, List.inj_on_of_nodup_map distinct (CardLookup.mem_of_find? isFound) member same]

namespace DeckImport

variable {lookup : CardLookup} {imported : DeckImport}

/-- A card that is not there yet is added with its whole count. -/
theorem addMain_listedLine {entry : Card × UInt32}
    (found : lookup.find? (exportName entry.1.name) = some entry.1)
    (admits : entry.1.allowedCopies.Admits entry.2)
    (apart : ∀ commander ∈ imported.commander, commander.id ≠ entry.1.id)
    (fresh : entry.1.id ∉ imported.cards.map (·.1.id)) :
    addMain lookup imported (listedLine entry) =
      { imported with cards := imported.cards ++ [entry] } := by
  have noLeader : ¬ imported.commander.any (·.id == entry.1.id) := by
    cases leader : imported.commander with
    | none => simp
    | some commander => simpa using apart commander leader
  have noCard : ¬ imported.cards.any (·.1.id == entry.1.id) := by
    intro present
    obtain ⟨other, member, same⟩ := List.any_eq_true.mp present
    exact fresh (List.mem_map.mpr ⟨other, member, beq_iff_eq.mp same⟩)
  simp only [addMain, listedLine, found, if_neg noLeader, count, if_neg noCard,
    CopyLimit.cut_eq_self admits]

theorem foldl_addMain_listedLine (imported : DeckImport) {entries : List (Card × UInt32)}
    (found : ∀ entry ∈ entries, lookup.find? (exportName entry.1.name) = some entry.1)
    (admits : ∀ entry ∈ entries, entry.1.allowedCopies.Admits entry.2)
    (apart : ∀ entry ∈ entries, ∀ commander ∈ imported.commander, commander.id ≠ entry.1.id)
    (distinct : ((imported.cards ++ entries).map (·.1.id)).Nodup) :
    (entries.map listedLine).foldl (addMain lookup) imported =
      { imported with cards := imported.cards ++ entries } := by
  induction entries generalizing imported with
  | nil => simp
  | cons entry rest ih =>
    obtain ⟨foundHere, foundLater⟩ := List.forall_mem_cons.mp found
    obtain ⟨admitsHere, admitsLater⟩ := List.forall_mem_cons.mp admits
    obtain ⟨apartHere, apartLater⟩ := List.forall_mem_cons.mp apart
    have fresh : entry.1.id ∉ imported.cards.map (·.1.id) := by
      intro member
      rw [List.map_append, List.map_cons] at distinct
      exact (List.nodup_append.mp distinct).2.2 _ member _ List.mem_cons_self rfl
    rw [List.append_cons] at distinct ⊢
    rw [List.map_cons, List.foldl_cons, addMain_listedLine foundHere admitsHere apartHere fresh,
      ih { imported with cards := imported.cards ++ [entry] } foundLater admitsLater apartLater
        distinct]

end DeckImport

theorem DeckCard.part_of_isMainNormal {α : Type} {card : DeckCard α} (normal : card.isMainNormal) :
    card.part = .main := by
  rw [isMainNormal, Bool.and_eq_true] at normal
  exact beq_iff_eq.mp normal.1

namespace Deck

variable {α : Type} {deck : Deck α} {catalogue : Catalogue}

/-- Each card is listed once. -/
theorem nodup_listedCards (distinct : (catalogue.cards.map (·.id)).Nodup)
    (slots : (deck.cards.map (·.slot)).Nodup) :
    ((deck.listedCards catalogue).map (·.1.id)).Nodup := by
  have apart : (deck.cards.filter (·.isMainNormal)).Pairwise fun first second =>
      first.slot ≠ second.slot :=
    (List.pairwise_map.mp slots).filter _
  simp only [listedCards, ← Catalogue.get?_eq_find? distinct]
  refine List.pairwise_map.mpr (List.pairwise_filterMap.mpr (apart.imp_of_mem ?_))
  intro first second isFirst isSecond other left listedLeft right listedRight same
  obtain ⟨leftCard, isLeft, rfl⟩ := Option.map_eq_some_iff.mp listedLeft
  obtain ⟨rightCard, isRight, rfl⟩ := Option.map_eq_some_iff.mp listedRight
  -- Cards of the main deck in different slots are different cards.
  have sameId : first.cardId = second.cardId := by
    rw [← (Catalogue.mem_of_get? isLeft).2, ← (Catalogue.mem_of_get? isRight).2]
    exact same
  refine other (congrArg₂ Slot.mk sameId ?_)
  rw [DeckCard.part_of_isMainNormal (List.mem_filter.mp isFirst).2,
    DeckCard.part_of_isMainNormal (List.mem_filter.mp isSecond).2]

/-- The first deck sets the commander, the second one lists the cards. -/
theorem foldl_addDeck_readDecks {lookup : CardLookup} {commander : Option Card}
    (found : ∀ card ∈ commander, lookup.find? (exportName card.name) = some card)
    (cards : List (Card × UInt32)) :
    (readDecks commander cards).foldl (DeckImport.addDeck lookup) (.empty []) =
      (cards.map listedLine).foldl (DeckImport.addMain lookup) ⟨commander, [], [], []⟩ := by
  have led : (commander.toList.map fun card => ⟨[listedLine (card, 1)], [], [], []⟩).foldl
      (DeckImport.addDeck lookup) (.empty []) = ⟨commander, [], [], []⟩ := by
    cases commander with
    | none => rfl
    | some card =>
      have isFound := found card rfl
      simp [DeckImport.addDeck, DeckImport.addCommander, listedLine, isFound, DeckImport.empty]
  rw [readDecks, List.foldl_append, led]
  cases cards <;> rfl

/-- **Import undoes export.** In a catalogue with distinct IDs, the decklist of a deck that can be
written is imported as its commander and the normal cards of its main deck with their counts, as far
as they are in the catalogue, and nothing is missed. -/
theorem ofText_decklist (distinct : (catalogue.cards.map (·.id)).Nodup)
    (listable : deck.IsListable catalogue) :
    DeckImport.ofText (deck.decklist catalogue) catalogue =
      ⟨deck.listedCommander? catalogue, deck.listedCards catalogue, [], []⟩ := by
  have foundCommander : ∀ card ∈ deck.listedCommander? catalogue,
      (CardLookup.ofCards catalogue.cards).find? (exportName card.name) = some card :=
    fun card leads => (listable.listedCommander distinct card leads).find?_eq distinct
      ((mem_listedCommander?_iff distinct).mp leads).1
  have found : ∀ entry ∈ deck.listedCards catalogue,
      (CardLookup.ofCards catalogue.cards).find? (exportName entry.1.name) = some entry.1 :=
    fun entry isListed => (listable.listedCards distinct entry isListed).1.find?_eq distinct
      ((mem_listedCards_iff distinct).mp isListed).1
  have admits : ∀ entry ∈ deck.listedCards catalogue, entry.1.allowedCopies.Admits entry.2 :=
    fun entry isListed => (listable.listedCards distinct entry isListed).2.2
  have apart : ∀ entry ∈ deck.listedCards catalogue,
      ∀ commander ∈ deck.listedCommander? catalogue, commander.id ≠ entry.1.id := by
    intro entry isListed commander leads same
    obtain ⟨-, leader, isLeader, leaderId⟩ := (mem_listedCommander?_iff distinct).mp leads
    obtain ⟨-, slot, isSlot, normal, cardId, -⟩ := (mem_listedCards_iff distinct).mp isListed
    exact listable.apart leader isLeader slot isSlot normal (by rw [← cardId, ← same, leaderId])
  have main := DeckImport.foldl_addMain_listedLine ⟨deck.listedCommander? catalogue, [], [], []⟩
    found admits apart (nodup_listedCards distinct listable.slots)
  rw [DeckImport.ofText, DeckImport.ofParsed, parsed_decklist distinct listable,
    foldl_addDeck_readDecks foundCommander, main]
  rfl

/-- A card of a type, of which nothing but the names is known. -/
def typedCard (id name typeLine : String) : Card :=
  ⟨id, name, none, 0, [], typeLine, .normal, [], [], []⟩

/-- Names with digits, with parentheses and with two sides. -/
def oddlyNamed : Catalogue :=
  ⟨[typedCard "island" "Island" "Basic Land — Island", typedCard "fire" "Fire // Ice" "Instant",
    typedCard "arrows" "100 Arrows (in 2 Rows)" "Sorcery",
    typedCard "esika" "Esika // The Bridge" "Legendary Creature — God"]⟩

/-- A deck with cards of both parts, one of which is not in the catalogue. -/
def oddlyNamedDeck : Deck Int :=
  let card (cardId : String) (count : UInt32) (part : DeckPart) (role : CardRole) : DeckCard Int :=
    ⟨cardId, count, part, role, none, ⟨0, 0, none⟩, []⟩
  { empty "odd" "Odd names" with
    cards := [card "fire" 1 .main .normal, card "esika" 1 .main .commander,
      card "island" 30 .main .normal, card "missing" 1 .main .normal,
      card "arrows" 1 .main .normal, card "island" 2 .sideboard .normal] }

theorem ofText_decklist_oddlyNamed :
    (oddlyNamed.cards.map (·.id)).Nodup ∧ oddlyNamedDeck.IsListable oddlyNamed ∧
      DeckImport.ofText (oddlyNamedDeck.decklist oddlyNamed) oddlyNamed =
        ⟨some (typedCard "esika" "Esika // The Bridge" "Legendary Creature — God"),
          [(typedCard "fire" "Fire // Ice" "Instant", 1),
            (typedCard "island" "Island" "Basic Land — Island", 30),
            (typedCard "arrows" "100 Arrows (in 2 Rows)" "Sorcery", 1)], [], []⟩ := by
  have distinct : (oddlyNamed.cards.map (·.id)).Nodup := by
    decide +kernel
  have listable : oddlyNamedDeck.IsListable oddlyNamed := by
    decide +kernel
  have listed : oddlyNamedDeck.listedCards oddlyNamed =
      [(typedCard "fire" "Fire // Ice" "Instant", 1),
        (typedCard "island" "Island" "Basic Land — Island", 30),
        (typedCard "arrows" "100 Arrows (in 2 Rows)" "Sorcery", 1)] := by
    decide +kernel
  refine ⟨distinct, listable, (ofText_decklist distinct listable).trans ?_⟩
  rw [listed]
  rfl

end Deck

end DeckBuilder
