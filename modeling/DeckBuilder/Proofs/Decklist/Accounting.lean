import DeckBuilder.Decklist.Import
import DeckBuilder.Proofs.Decklist.Naming
import DeckBuilder.Proofs.Decklist.Sections
import DeckBuilder.Proofs.SortedMap

/-! # What becomes of the lines of a decklist

An import accounts for every line of a decklist: lines that are no entries are errors, names that
mean no card are noted, and cards that are meant lead the import or are listed. A commander leads
until another one does, and a card of the main deck is listed unless it leads its deck.
-/

namespace DeckBuilder

/-- The cards that the entries mean, in their order. -/
def CardLookup.cardsOf (lookup : CardLookup) (entries : List DecklistLine) : List Card :=
  entries.filterMap fun entry => lookup.find? entry.name

namespace DeckImport

/-- A card with the ID is among the cards of the main deck. -/
def Holds (imported : DeckImport) (id : String) : Prop :=
  ∃ entry ∈ imported.cards, entry.1.id = id

/-- A card with the ID leads the import. -/
def Leads (imported : DeckImport) (id : String) : Prop :=
  ∃ commander ∈ imported.commander, commander.id = id

theorem holds_iff (imported : DeckImport) (id : String) :
    imported.Holds id ↔ id ∈ imported.cards.map (·.1.id) := by
  simp [Holds]

theorem leads_iff (imported : DeckImport) (id : String) :
    imported.commander.any (·.id == id) ↔ imported.Leads id := by
  rw [Leads]
  cases imported.commander <;> simp

variable {lookup : CardLookup}

/-! ## Steps -/

/-- A card is listed where it is listed already, or else last. -/
theorem map_fst_count (imported : DeckImport) (card : Card) (copies : UInt32) :
    (imported.count card copies).cards.map (·.1) =
      if card.id ∈ imported.cards.map (·.1.id) then imported.cards.map (·.1)
      else imported.cards.map (·.1) ++ [card] := by
  have present : imported.cards.any (·.1.id == card.id) = true ↔
      card.id ∈ imported.cards.map (·.1.id) := by
    simp [List.mem_map]
  have sameCard (entry : Card × UInt32) :
      (entry.1, card.allowedCopies.cut (addCounts entry.2 copies)).1 = entry.1 :=
    rfl
  rw [count]
  by_cases listed : card.id ∈ imported.cards.map (·.1.id)
  · rw [if_pos (present.mpr listed), if_pos listed, map_changeFirst sameCard]
  · rw [if_neg (present.not.mpr listed), if_neg listed, List.map_append, List.map_singleton]

theorem map_id_count (imported : DeckImport) (card : Card) (copies : UInt32) :
    (imported.count card copies).cards.map (·.1.id) =
      if card.id ∈ imported.cards.map (·.1.id) then imported.cards.map (·.1.id)
      else imported.cards.map (·.1.id) ++ [card.id] := by
  have ids (entries : List (Card × UInt32)) :
      entries.map (·.1.id) = (entries.map (·.1)).map (·.id) :=
    (List.map_map ..).symm
  rw [ids (imported.count card copies).cards, map_fst_count, ids imported.cards]
  split
  · rfl
  · rw [List.map_append, List.map_singleton]

theorem holds_count (imported : DeckImport) (card : Card) (copies : UInt32) {id : String} :
    (imported.count card copies).Holds id ↔ card.id = id ∨ imported.Holds id := by
  rw [holds_iff, holds_iff, map_id_count]
  split
  · rename_i listed
    exact (or_iff_right_of_imp fun same => same ▸ listed).symm
  · rw [List.mem_append, List.mem_singleton, or_comm, eq_comm]

theorem commander_count (imported : DeckImport) (card : Card) (copies : UInt32) :
    (imported.count card copies).commander = imported.commander := by
  rw [count]
  split <;> rfl

theorem commander_addMain (imported : DeckImport) (line : DecklistLine) :
    (addMain lookup imported line).commander = imported.commander := by
  rw [addMain]
  split
  · split
    · rfl
    · exact commander_count imported _ _
  · rfl

theorem holds_addMain {imported : DeckImport} {id : String} (holds : imported.Holds id)
    (line : DecklistLine) : (addMain lookup imported line).Holds id := by
  rw [addMain]
  split
  · split
    · exact holds
    · exact (holds_count imported _ _).mpr (.inr holds)
  · exact holds

/-- A card of the main deck is listed, unless it leads. -/
theorem holds_addMain_or_leads (imported : DeckImport) {line : DecklistLine} {card : Card}
    (found : lookup.find? line.name = some card) :
    (addMain lookup imported line).Holds card.id ∨ imported.Leads card.id := by
  simp only [addMain, found]
  split
  · rename_i leads
    exact .inr ((leads_iff imported card.id).mp leads)
  · exact .inl ((holds_count imported _ _).mpr (.inl rfl))

theorem cards_addCommander (imported : DeckImport) (line : DecklistLine) :
    (addCommander lookup imported line).cards = imported.cards := by
  rw [addCommander]
  split <;> rfl

theorem holds_addCommander {imported : DeckImport} {id : String} (holds : imported.Holds id)
    (line : DecklistLine) : (addCommander lookup imported line).Holds id := by
  rwa [Holds, cards_addCommander]

/-! ## Decks -/

theorem commander_foldl_addMain (imported : DeckImport) (lines : List DecklistLine) :
    (lines.foldl (addMain lookup) imported).commander = imported.commander :=
  Lists.foldl_kept (·.commander) (fun state line _ => commander_addMain state line) imported

theorem commander_foldl_addCommander (imported : DeckImport) (lines : List DecklistLine) :
    (lines.foldl (addCommander lookup) imported).commander =
      (lookup.cardsOf lines).getLast?.or imported.commander := by
  induction lines generalizing imported with
  | nil => rfl
  | cons line rest ih =>
    rw [List.foldl_cons, ih, addCommander, CardLookup.cardsOf]
    cases found : lookup.find? line.name with
    | none => simp [CardLookup.cardsOf, found, miss]
    | some card => simp [CardLookup.cardsOf, found, List.getLast?_cons]

theorem commander_addDeck (imported : DeckImport) (deck : ParsedDeck) :
    (addDeck lookup imported deck).commander =
      (lookup.cardsOf (deck.entries .commander)).getLast?.or imported.commander := by
  rw [addDeck, commander_foldl_addMain, commander_foldl_addCommander]
  rfl

/-- The last commander leads. -/
theorem commander_foldl_addDeck (imported : DeckImport) (decks : List ParsedDeck) :
    (decks.foldl (addDeck lookup) imported).commander =
      (lookup.cardsOf (decks.flatMap (·.entries .commander))).getLast?.or imported.commander := by
  induction decks generalizing imported with
  | nil => rfl
  | cons deck rest ih =>
    rw [List.foldl_cons, ih, commander_addDeck, List.flatMap_cons, CardLookup.cardsOf,
      CardLookup.cardsOf, CardLookup.cardsOf, List.filterMap_append, List.getLast?_append,
      Option.or_assoc]

theorem holds_foldl_addMain {imported : DeckImport} {id : String} (holds : imported.Holds id)
    (lines : List DecklistLine) : (lines.foldl (addMain lookup) imported).Holds id :=
  List.foldlRecOn (motive := (DeckImport.Holds · id)) lines _ holds fun _ held line _ =>
    holds_addMain held line

theorem commander_foldl_empty (errors : List String) (decks : List ParsedDeck) :
    (decks.foldl (addDeck lookup) (empty errors)).commander =
      (lookup.cardsOf (decks.flatMap (·.entries .commander))).getLast? :=
  (commander_foldl_addDeck _ decks).trans Option.or_none

theorem holds_addDeck {imported : DeckImport} {id : String} (holds : imported.Holds id)
    (deck : ParsedDeck) : (addDeck lookup imported deck).Holds id := by
  apply holds_foldl_addMain
  exact List.foldlRecOn (motive := (DeckImport.Holds · id)) deck.commander _ holds
    fun _ held line _ => holds_addCommander held line

theorem holds_foldl_addDeck {imported : DeckImport} {id : String} (holds : imported.Holds id)
    (decks : List ParsedDeck) : (decks.foldl (addDeck lookup) imported).Holds id :=
  List.foldlRecOn (motive := (DeckImport.Holds · id)) decks _ holds fun _ held deck _ =>
    holds_addDeck held deck

/-- A card of the main deck is listed, unless it leads the deck. -/
theorem holds_addDeck_or_leads (imported : DeckImport) {deck : ParsedDeck} {entry : DecklistLine}
    (member : entry ∈ deck.entries .deck) {card : Card}
    (found : lookup.find? entry.name = some card) :
    (addDeck lookup imported deck).Holds card.id ∨
      (addDeck lookup imported deck).Leads card.id := by
  obtain ⟨before, after, split⟩ := List.append_of_mem member
  have whole : addDeck lookup imported deck = after.foldl (addMain lookup)
      (addMain lookup (before.foldl (addMain lookup)
        (deck.commander.foldl (addCommander lookup) imported)) entry) := by
    rw [addDeck, show deck.deck = before ++ entry :: after from split, List.foldl_append,
      List.foldl_cons]
  rcases holds_addMain_or_leads _ found with holds | leads
  · rw [whole]
    exact .inl (holds_foldl_addMain holds after)
  · refine .inr ?_
    rwa [Leads, whole, commander_foldl_addMain, commander_addMain]

/-- A card of the main deck of some deck is listed in the end, unless it leads that deck. -/
theorem holds_foldl_addDeck_or_leads (imported : DeckImport) (earlier later : List ParsedDeck)
    {deck : ParsedDeck} {entry : DecklistLine} (member : entry ∈ deck.entries .deck) {card : Card}
    (found : lookup.find? entry.name = some card) :
    ((earlier ++ deck :: later).foldl (addDeck lookup) imported).Holds card.id ∨
      ((earlier ++ [deck]).foldl (addDeck lookup) imported).Leads card.id := by
  rw [List.foldl_append, List.foldl_append]
  exact (holds_addDeck_or_leads _ member found).imp_left fun holds =>
    holds_foldl_addDeck holds later

/-! ## What counting keeps -/

section

variable {motive : List (Card × UInt32) → Prop} {cards : List Card}
  (count : ∀ imported : DeckImport, ∀ card ∈ cards, ∀ copies, motive imported.cards →
    motive (imported.count card copies).cards)

include count

theorem cards_addDeck_induction {imported : DeckImport} (held : motive imported.cards)
    (deck : ParsedDeck) : motive (addDeck (.ofCards cards) imported deck).cards := by
  refine List.foldlRecOn (motive := fun imported : DeckImport => motive imported.cards) _ _ ?_ ?_
  · rwa [Lists.foldl_kept (·.cards) fun state line _ => cards_addCommander state line]
  · intro state before line _
    rw [addMain]
    split
    · rename_i card found
      split
      · exact before
      · exact count state card (CardLookup.mem_of_find? found) line.count before
    · exact before

/-- What holds of no cards, and is kept when copies of a card are counted, holds of the cards of
every import. -/
theorem cards_ofText_induction (none : motive []) (text : String) :
    motive (ofText text ⟨cards⟩).cards := by
  have new : motive (empty (ParsedDecklist.ofText text).errors).cards := none
  have resolved := List.foldlRecOn (motive := fun imported : DeckImport => motive imported.cards)
    (ParsedDecklist.ofText text).decks (addDeck (.ofCards cards)) new
    fun _ before deck _ => cards_addDeck_induction count before deck
  rw [ofText, ofParsed]
  exact resolved

end

/-! ## Names that mean no card -/

theorem mem_unmatched_addCommander (imported : DeckImport) (line : DecklistLine) {name : String} :
    name ∈ (addCommander lookup imported line).unmatched ↔
      (lookup.find? line.name = none ∧ "Commander: " ++ line.name = name) ∨
        name ∈ imported.unmatched := by
  rw [addCommander]
  cases found : lookup.find? line.name with
  | none => simp [miss, or_comm, eq_comm]
  | some card => simp

theorem mem_unmatched_addMain (imported : DeckImport) (line : DecklistLine) {name : String} :
    name ∈ (addMain lookup imported line).unmatched ↔
      (lookup.find? line.name = none ∧ line.name = name) ∨ name ∈ imported.unmatched := by
  rw [addMain]
  cases found : lookup.find? line.name with
  | none => simp [miss, or_comm, eq_comm]
  | some card =>
    simp only [reduceCtorEq, false_and, false_or]
    split
    · rfl
    · rw [count]
      split <;> rfl

theorem mem_unmatched_addDeck (imported : DeckImport) (deck : ParsedDeck) {name : String} :
    name ∈ (addDeck lookup imported deck).unmatched ↔
      ((∃ entry ∈ deck.entries .deck, lookup.find? entry.name = none ∧ entry.name = name) ∨
        ∃ entry ∈ deck.entries .commander,
          lookup.find? entry.name = none ∧ "Commander: " ++ entry.name = name) ∨
        name ∈ imported.unmatched := by
  rw [addDeck, or_assoc,
    Lists.foldl_iff (name ∈ DeckImport.unmatched ·)
      (fun imported line => mem_unmatched_addMain imported line),
    Lists.foldl_iff (name ∈ DeckImport.unmatched ·)
      (fun imported line => mem_unmatched_addCommander imported line)]
  rfl

/-- **The names that are noted** are those of the main decks that mean no card, and with a label
those of commanders. -/
theorem mem_unmatched_ofParsed (parsed : ParsedDecklist) (lookup : CardLookup) {name : String} :
    name ∈ (ofParsed parsed lookup).unmatched ↔
      (∃ entry ∈ parsed.decks.flatMap (·.entries .deck),
        lookup.find? entry.name = none ∧ entry.name = name) ∨
        ∃ entry ∈ parsed.decks.flatMap (·.entries .commander),
          lookup.find? entry.name = none ∧ "Commander: " ++ entry.name = name := by
  rw [ofParsed, SortedMap.mem_distinctSorted,
    Lists.foldl_iff (name ∈ DeckImport.unmatched ·)
      (fun imported deck => mem_unmatched_addDeck imported deck)]
  simp only [List.mem_flatMap, empty, List.not_mem_nil, or_false]
  constructor
  · rintro ⟨deck, isDeck, ⟨entry, member, missed⟩ | ⟨entry, member, missed⟩⟩
    · exact .inl ⟨entry, ⟨deck, isDeck, member⟩, missed⟩
    · exact .inr ⟨entry, ⟨deck, isDeck, member⟩, missed⟩
  · rintro (⟨entry, ⟨deck, isDeck, member⟩, missed⟩ | ⟨entry, ⟨deck, isDeck, member⟩, missed⟩)
    · exact ⟨deck, isDeck, .inl ⟨entry, member, missed⟩⟩
    · exact ⟨deck, isDeck, .inr ⟨entry, member, missed⟩⟩

/-! ## Whole decklists -/

theorem errors_addCommander (imported : DeckImport) (line : DecklistLine) :
    (addCommander lookup imported line).errors = imported.errors := by
  rw [addCommander]
  split <;> rfl

theorem errors_addMain (imported : DeckImport) (line : DecklistLine) :
    (addMain lookup imported line).errors = imported.errors := by
  rw [addMain]
  split
  · split
    · rfl
    · rw [count]
      split <;> rfl
  · rfl

theorem errors_addDeck (imported : DeckImport) (deck : ParsedDeck) :
    (addDeck lookup imported deck).errors = imported.errors := by
  rw [addDeck, Lists.foldl_kept (·.errors) fun state line _ => errors_addMain state line,
    Lists.foldl_kept (·.errors) fun state line _ => errors_addCommander state line]

theorem commander_ofParsed (parsed : ParsedDecklist) (lookup : CardLookup) :
    (ofParsed parsed lookup).commander =
      (lookup.cardsOf (parsed.decks.flatMap (·.entries .commander))).getLast? := by
  rw [ofParsed, commander_foldl_empty]

theorem errors_ofParsed (parsed : ParsedDecklist) (lookup : CardLookup) :
    (ofParsed parsed lookup).errors = parsed.errors := by
  rw [ofParsed, Lists.foldl_kept (·.errors) fun state deck _ => errors_addDeck state deck]
  rfl

end DeckImport

namespace CardLookup

/-- The card that leads after the lines, the first of which stand in a section. -/
def leader? (lookup : CardLookup) (part : DecklistSection) (lines : List (List Char)) :
    Option Card :=
  (lookup.cardsOf (ParsedDecklist.entriesOf .commander part lines)).getLast?

end CardLookup

namespace DeckImport

open ParsedDecklist

variable {lookup : CardLookup}

theorem errors_ofText (text : String) (catalogue : Catalogue) :
    (ofText text catalogue).errors = errorsOf (lines text) := by
  rw [ofText, errors_ofParsed, ParsedDecklist.errors_ofText]

theorem commander_ofText (text : String) (catalogue : Catalogue) :
    (ofText text catalogue).commander =
      (CardLookup.ofCards catalogue.cards).leader? .deck (lines text) := by
  rw [ofText, commander_ofParsed, entries_ofText]
  rfl

theorem mem_unmatched_ofText (text : String) (catalogue : Catalogue) {name : String} :
    name ∈ (ofText text catalogue).unmatched ↔
      (∃ entry ∈ entriesOf .deck .deck (lines text),
        (CardLookup.ofCards catalogue.cards).find? entry.name = none ∧ entry.name = name) ∨
        ∃ entry ∈ entriesOf .commander .deck (lines text),
          (CardLookup.ofCards catalogue.cards).find? entry.name = none ∧
            "Commander: " ++ entry.name = name := by
  rw [ofText, mem_unmatched_ofParsed, entries_ofText, entries_ofText]

/-- The import tells what became of every line of a decklist. Cards are told apart by their IDs. -/
structure AccountsFor (imported : DeckImport) (lookup : CardLookup) (lines : List (List Char)) :
    Prop where
  /-- A line that is neither a header nor an entry is an error. -/
  errors : ∀ line ∈ lines, DecklistSection.ofHeader? line = none →
    DecklistLine.parse? line = none → String.ofList line ∈ imported.errors
  /-- The name of a commander that means no card is noted with a label. -/
  missedCommander : ∀ seen after entry, lines = seen ++ after → EndsInEntry seen .commander entry →
    lookup.find? entry.name = none → "Commander: " ++ entry.name ∈ imported.unmatched
  /-- A name of the main deck that means no card is noted. -/
  missedCard : ∀ seen after entry, lines = seen ++ after → EndsInEntry seen .deck entry →
    lookup.find? entry.name = none → entry.name ∈ imported.unmatched
  /-- A commander leads the import, unless a later one does. -/
  commander : ∀ seen after entry card, lines = seen ++ after → EndsInEntry seen .commander entry →
    lookup.find? entry.name = some card →
      imported.commander = some ((lookup.leader? .commander after).getD card)
  /-- A card of the main deck is listed, unless it leads its deck, which ends before the next header
  of a main deck. -/
  card : ∀ seen after entry card, lines = seen ++ after → EndsInEntry seen .deck entry →
    lookup.find? entry.name = some card →
      imported.Holds card.id ∨
        ∃ leader ∈ lookup.leader? .deck (seen ++ beforeDeckHeader after), leader.id = card.id
  /-- No card is lost when all commanders that mean a card mean the same one. -/
  kept : (∀ first ∈ lookup.cardsOf (entriesOf .commander .deck lines),
      ∀ second ∈ lookup.cardsOf (entriesOf .commander .deck lines), first.id = second.id) →
    ∀ seen after part entry card, lines = seen ++ after → EndsInEntry seen part entry →
      part = .commander ∨ part = .deck → lookup.find? entry.name = some card →
        imported.Leads card.id ∨ imported.Holds card.id

theorem leader?_append (lookup : CardLookup) (part : DecklistSection)
    (first second : List (List Char)) :
    lookup.leader? part (first ++ second) =
      (lookup.leader? (sectionAfter part first) second).or (lookup.leader? part first) := by
  rw [CardLookup.leader?, entriesOf_append, CardLookup.cardsOf, List.filterMap_append,
    List.getLast?_append]
  rfl

theorem mem_entriesOf_of_endsInEntry {seen : List (List Char)} {part : DecklistSection}
    {entry : DecklistLine} (ends : EndsInEntry seen part entry) (after : List (List Char)) :
    entry ∈ entriesOf part .deck (seen ++ after) := by
  obtain ⟨⟨earlier, split⟩, -⟩ := entriesOf_of_endsInEntry ends
  rw [entriesOf_append, split]
  simp

/-- A commander that means a card leads after its line. -/
theorem leader?_of_endsInEntry {seen : List (List Char)} {entry : DecklistLine}
    (ends : EndsInEntry seen .commander entry) {card : Card}
    (found : lookup.find? entry.name = some card) : lookup.leader? .deck seen = some card := by
  obtain ⟨⟨earlier, split⟩, -⟩ := entriesOf_of_endsInEntry ends
  rw [CardLookup.leader?, split, CardLookup.cardsOf, List.filterMap_append]
  simp [found]

theorem holds_ofText_or_leads (text : String) (catalogue : Catalogue)
    {seen after : List (List Char)} (split : lines text = seen ++ after) {entry : DecklistLine}
    (ends : EndsInEntry seen .deck entry) {card : Card}
    (found : (CardLookup.ofCards catalogue.cards).find? entry.name = some card) :
    (ofText text catalogue).Holds card.id ∨
      ∃ leader ∈ (CardLookup.ofCards catalogue.cards).leader? .deck
        (seen ++ beforeDeckHeader after), leader.id = card.id := by
  obtain ⟨earlier, deck, later, decks, member, kept⟩ :=
    Reading.exists_deck_of_endsInEntry ends after
  rw [← split, ← ParsedDecklist.ofText] at decks
  have held := holds_foldl_addDeck_or_leads (empty (ParsedDecklist.ofText text).errors) earlier
    later member found
  rw [← decks] at held
  rcases held with holds | ⟨leader, leads, same⟩
  · rw [Holds, ofText, ofParsed]
    exact .inl holds
  · rw [commander_foldl_empty, kept] at leads
    exact .inr ⟨leader, leads, same⟩

/-- When all commanders that mean a card mean the same one, it leads. -/
theorem leads_of_mem_cardsOf {text : String} {catalogue : Catalogue}
    (same : ∀ first ∈ (CardLookup.ofCards catalogue.cards).cardsOf
        (entriesOf .commander .deck (lines text)),
      ∀ second ∈ (CardLookup.ofCards catalogue.cards).cardsOf
        (entriesOf .commander .deck (lines text)), first.id = second.id)
    {card : Card} (member : card ∈ (CardLookup.ofCards catalogue.cards).cardsOf
      (entriesOf .commander .deck (lines text))) :
    (ofText text catalogue).Leads card.id := by
  have last := List.getLast?_eq_some_getLast (List.ne_nil_of_mem member)
  rw [Leads, commander_ofText, CardLookup.leader?, last]
  exact ⟨_, rfl, same _ (List.getLast_mem _) card member⟩

/-- **An import accounts for every line.** A text has one list of trimmed lines that are not blank,
and the import tells what became of each of them. -/
theorem accountsFor_ofText (text : String) (catalogue : Catalogue) :
    ∃ lines, (∀ others, Text.LinesOf others text.toList ↔ others = lines) ∧
      (ofText text catalogue).AccountsFor (.ofCards catalogue.cards) lines := by
  have commander (seen after : List (List Char)) (entry : DecklistLine) (card : Card)
      (split : lines text = seen ++ after) (ends : EndsInEntry seen .commander entry)
      (found : (CardLookup.ofCards catalogue.cards).find? entry.name = some card) :
      (ofText text catalogue).commander =
        some (((CardLookup.ofCards catalogue.cards).leader? .commander after).getD card) := by
    rw [commander_ofText, split, leader?_append, (entriesOf_of_endsInEntry ends).2,
      leader?_of_endsInEntry ends found]
    cases (CardLookup.ofCards catalogue.cards).leader? .commander after <;> rfl
  refine ⟨lines text, fun others => linesOf_iff_eq_lines, ?_, ?_, ?_, commander, ?_, ?_⟩
  · intro line member noHeader unread
    rw [errors_ofText, errorsOf]
    refine List.mem_map_of_mem (List.mem_filter.mpr ⟨member, ?_⟩)
    rw [noHeader, unread]
    rfl
  · intro seen after entry split ends missed
    refine (mem_unmatched_ofText text catalogue).mpr (.inr ⟨entry, ?_, missed, rfl⟩)
    exact split ▸ mem_entriesOf_of_endsInEntry ends after
  · intro seen after entry split ends missed
    refine (mem_unmatched_ofText text catalogue).mpr (.inl ⟨entry, ?_, missed, rfl⟩)
    exact split ▸ mem_entriesOf_of_endsInEntry ends after
  · intro seen after entry card split ends found
    exact holds_ofText_or_leads text catalogue split ends found
  · intro same seen after part entry card split ends leadsOrCounts found
    rcases leadsOrCounts with rfl | rfl
    · refine .inl (leads_of_mem_cardsOf same (List.mem_filterMap.mpr ⟨entry, ?_, found⟩))
      exact split ▸ mem_entriesOf_of_endsInEntry ends after
    · refine (holds_ofText_or_leads text catalogue split ends found).symm.imp_left ?_
      rintro ⟨leader, leads, sameId⟩
      rw [← sameId]
      apply leads_of_mem_cardsOf same
      obtain ⟨rest, whole⟩ := beforeDeckHeader_isPrefix after
      rw [split, ← whole, ← List.append_assoc, entriesOf_append, CardLookup.cardsOf,
        List.filterMap_append]
      exact List.mem_append_left _ (List.mem_of_getLast? leads)

/-- A card of which nothing but the name is known. -/
def bareCard (id name : String) : Card :=
  ⟨id, name, none, 0, [], "", .normal, [], [], []⟩

def alphaAndBeta : Catalogue :=
  ⟨[bareCard "a" "Alpha", bareCard "b" "Beta"]⟩

/-- Both cards as commanders of one deck. -/
def twoCommanders : String :=
  "Commander\n1 Alpha\n1 Beta\n"

/-- The second commander takes the place of the first one, which is neither listed nor noted. -/
theorem ofText_twoCommanders_loses :
    ¬ ∀ seen after part entry card, Text.LinesOf (seen ++ after) twoCommanders.toList →
      EndsInEntry seen part entry → part = .commander ∨ part = .deck →
        (CardLookup.ofCards alphaAndBeta.cards).find? entry.name = some card →
          (ofText twoCommanders alphaAndBeta).Leads card.id ∨
            (ofText twoCommanders alphaAndBeta).Holds card.id := by
  intro every
  have isLines : Text.LinesOf (["Commander".toList, "1 Alpha".toList] ++ ["1 Beta".toList])
      twoCommanders.toList :=
    linesOf_iff_eq_lines.mpr (by decide +kernel)
  have ends : EndsInEntry ["Commander".toList, "1 Alpha".toList] .commander ⟨"Alpha", 1⟩ :=
    ⟨["Commander".toList], "1 Alpha".toList, rfl, by decide +kernel, by decide +kernel,
      by decide +kernel⟩
  have found : (CardLookup.ofCards alphaAndBeta.cards).find? "Alpha" =
      some (bareCard "a" "Alpha") := by
    decide +kernel
  have lost : ¬ ((ofText twoCommanders alphaAndBeta).Leads "a" ∨
      (ofText twoCommanders alphaAndBeta).Holds "a") := by
    unfold Leads Holds
    decide +kernel
  exact lost (every _ _ _ _ _ isLines ends (.inl rfl) found)

end DeckImport

end DeckBuilder
