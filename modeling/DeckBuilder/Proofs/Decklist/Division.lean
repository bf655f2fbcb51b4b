import DeckBuilder.Proofs.Decklist.Sections
import Mathlib.Data.List.Infix

/-! # How a decklist is divided into decks

A deck goes on up to the next header of a main deck that has an entry of the deck before it, so
there is one way of dividing lines into decks. Reading a decklist divides its lines in this way, and
every line is kept in the section it stands in or as an error.
-/

namespace DeckBuilder

/-! ## Entries -/

namespace DecklistLine

/-- An entry counts at least one copy of something that has a name without blanks around it. -/
structure IsProper (entry : DecklistLine) : Prop where
  count : 1 ≤ entry.count.toNat ∧ entry.count.toNat ≤ UInt32.size - 1
  named : entry.name ≠ ""
  trimmed : Text.Trimmed entry.name.toList

theorem isProper_of_ofParts? {digits name : List Char} {entry : DecklistLine}
    (made : ofParts? digits name = some entry) : entry.IsProper := by
  rw [ofParts?] at made
  obtain ⟨count, -, made⟩ := Option.bind_eq_some_iff.mp made
  obtain ⟨⟨positive, small, some⟩, same⟩ := Option.ite_none_right_eq_some.mp made
  obtain rfl := Option.some_inj.mp same
  refine ⟨?_, ?_, ?_⟩
  · dsimp only
    rw [UInt32.toNat_ofNat_of_lt' small]
    exact ⟨positive, Nat.le_sub_one_of_lt small⟩
  · intro unnamed
    simp [String.ofList_eq_empty_iff.mp unnamed] at some
  · rw [String.toList_ofList]
    exact Text.trimmed_trim name

theorem isProper_of_parse? {line : List Char} {entry : DecklistLine}
    (parsed : parse? line = some entry) : entry.IsProper := by
  obtain ⟨parts, -, made⟩ := Option.bind_eq_some_iff.mp parsed
  exact isProper_of_ofParts? made

end DecklistLine

namespace ParsedDeck

/-- The entries of all sections. -/
def allEntries (deck : ParsedDeck) : List DecklistLine :=
  deck.commander ++ deck.companion ++ deck.deck ++ deck.sideboard

theorem isEmpty_iff_allEntries (deck : ParsedDeck) : deck.isEmpty ↔ deck.allEntries = [] := by
  simp [isEmpty, allEntries, and_assoc]

theorem ext_entries {first second : ParsedDeck}
    (same : ∀ part, first.entries part = second.entries part) : first = second := by
  cases first
  cases second
  exact (mk.injEq ..).mpr ⟨same .commander, same .companion, same .deck, same .sideboard⟩

end ParsedDeck

namespace ParsedDecklist

/-- The entry that a line is. A header is none, even if it could be read as one. -/
def parseLine? (line : List Char) : Option DecklistLine :=
  if (DecklistSection.ofHeader? line).isSome then none else DecklistLine.parse? line

/-- Whether one of the lines is an entry. -/
def hasEntry (lines : List (List Char)) : Bool :=
  lines.any fun line => (parseLine? line).isSome

/-- The deck that the lines are, of which those before the first header are in the main deck. -/
def deckOf (lines : List (List Char)) : ParsedDeck :=
  ⟨entriesOf .commander .deck lines, entriesOf .companion .deck lines, entriesOf .deck .deck lines,
    entriesOf .sideboard .deck lines⟩

theorem entries_deckOf (lines : List (List Char)) (part : DecklistSection) :
    (deckOf lines).entries part = entriesOf part .deck lines := by
  cases part <;> rfl

/-- Every entry is in one section. -/
theorem count_entriesOf (entry : DecklistLine) (part : DecklistSection) (lines : List (List Char)) :
    (entriesOf .commander part lines).count entry + (entriesOf .companion part lines).count entry +
        (entriesOf .deck part lines).count entry + (entriesOf .sideboard part lines).count entry =
      (lines.filterMap parseLine?).count entry := by
  induction lines generalizing part with
  | nil => rfl
  | cons line rest ih =>
    cases isHeader : DecklistSection.ofHeader? line with
    | some next => simp [entriesOf, parseLine?, isHeader, ih next]
    | none =>
      cases parsed : DecklistLine.parse? line with
      | none => simp [entriesOf, parseLine?, isHeader, parsed, ih part]
      | some found =>
        rw [List.filterMap_cons_some (b := found) (by simp [parseLine?, isHeader, parsed]),
          List.count_cons, ← ih part]
        cases part <;> simp [entriesOf, isHeader, parsed, List.count_cons] <;> omega

/-- **No entry is lost or doubled** when lines are put into sections. -/
theorem allEntries_deckOf_perm (lines : List (List Char)) :
    (deckOf lines).allEntries.Perm (lines.filterMap parseLine?) := by
  rw [List.perm_iff_count]
  intro entry
  rw [← count_entriesOf entry .deck lines]
  simp only [ParsedDeck.allEntries, deckOf, List.count_append]

theorem isEmpty_deckOf (lines : List (List Char)) : (deckOf lines).isEmpty = !hasEntry lines := by
  rw [Bool.eq_iff_iff, ParsedDeck.isEmpty_iff_allEntries, ← List.perm_nil,
    (allEntries_deckOf_perm lines).congr_left, List.perm_nil]
  simp [hasEntry]

/-! ## Dividing lines -/

/-- The lines belong to one deck: those before a header of a main deck are without entries. -/
def IsWhole (deck : List (List Char)) : Prop :=
  ∀ before header after, deck = before ++ header :: after →
    DecklistSection.ofHeader? header = some .deck → hasEntry before = false

/-- Lines are divided into decks. A deck that has entries ends before the next header of a main
deck, with which another deck begins, or else with the last line. -/
inductive Divides : List (List Char) → List (List (List Char)) → Prop where
  | last {deck : List (List Char)} (whole : IsWhole deck) : Divides deck [deck]
  | next {lines deck : List (List Char)} {header : List Char} {rest : List (List Char)}
      {decks : List (List (List Char))} (whole : IsWhole deck) (filled : hasEntry deck)
      (opens : DecklistSection.ofHeader? header = some .deck)
      (split : lines = deck ++ header :: rest) (onwards : Divides (header :: rest) decks) :
      Divides lines (deck :: decks)

section

variable {lines seen deck rest : List (List Char)} {decks : List (List (List Char))}
  {text header : List Char}

/-- No line is left out. -/
theorem Divides.flatten_eq (divides : Divides lines decks) : decks.flatten = lines := by
  induction divides with
  | last => simp
  | next _ _ _ split _ ih => rw [List.flatten_cons, ih, split]

/-- A deck does not go on beyond a header of a main deck that comes after an entry. -/
theorem IsWhole.isPrefix {first after : List (List Char)} (whole : IsWhole deck)
    (filled : hasEntry first) (opens : DecklistSection.ofHeader? header = some .deck)
    (same : first ++ header :: rest = deck ++ after) : deck <+: first := by
  rcases List.append_eq_append_iff.mp same with ⟨extra, further, split⟩ | ⟨extra, within, -⟩
  · cases extra with
    | nil => simp [further]
    | cons line extra =>
      obtain ⟨rfl, -⟩ := List.cons.inj split
      have empty := whole first header extra further opens
      rw [filled] at empty
      cases empty
  · exact ⟨extra, within.symm⟩

/-- There is one way of dividing lines. -/
theorem Divides.unique (left : Divides lines decks) {others : List (List (List Char))}
    (right : Divides lines others) : decks = others := by
  induction left generalizing others with
  | last whole =>
    cases right with
    | last => rfl
    | next _ filled opens split =>
      have empty := whole _ _ _ split opens
      rw [filled] at empty
      cases empty
  | @next lines deck header rest decks whole filled opens split onwards ih =>
    cases right with
    | last otherWhole =>
      have empty := otherWhole _ _ _ split opens
      rw [filled] at empty
      cases empty
    | @next _ other otherHeader otherRest others otherWhole otherFilled otherOpens otherSplit
        otherOnwards =>
      rw [split] at otherSplit
      have within := whole.isPrefix otherFilled otherOpens otherSplit.symm
      have around := otherWhole.isPrefix filled opens otherSplit
      obtain rfl := within.eq_of_length_le around.length_le
      rw [← List.append_cancel_left otherSplit] at otherOnwards
      rw [ih otherOnwards]

/-! ## Reading -/

theorem IsWhole.append_singleton (whole : IsWhole seen)
    (within : DecklistSection.ofHeader? text = some .deck → hasEntry seen = false) :
    IsWhole (seen ++ [text]) := by
  intro before header after split opens
  rcases List.eq_nil_or_concat after with rfl | ⟨others, last, rfl⟩
  · obtain ⟨rfl, same⟩ := List.append_inj' split rfl
    obtain rfl : text = header := by simpa using same
    exact within opens
  · refine whole before header others ?_ opens
    have shorter : seen ++ [text] = (before ++ header :: others) ++ [last] := by simpa using split
    exact (List.append_inj' shorter rfl).1

theorem isWhole_nil : IsWhole [] := by
  intro before header after split
  simp at split

theorem isWhole_singleton (text : List Char) : IsWhole [text] :=
  isWhole_nil.append_singleton fun _ => rfl

namespace Reading

variable {reading : Reading}

/-- The reader has read the lines of the deck that it is in. -/
structure StandsIn (reading : Reading) (seen : List (List Char)) : Prop where
  current : reading.current = deckOf seen
  part : reading.part = sectionAfter .deck seen

/-- A header of a main deck after an entry begins a deck. -/
theorem StandsIn.line_begins (stands : reading.StandsIn seen) (filled : hasEntry seen)
    (opens : DecklistSection.ofHeader? text = some .deck) :
    (reading.line text).StandsIn [text] ∧
      (reading.line text).finished.decks = reading.finished.decks ++ [deckOf seen] := by
  have someEntry : reading.current.isEmpty = false := by
    rw [stands.current, isEmpty_deckOf, filled]
    rfl
  rw [line_of_header opens, header, if_pos (by simp [someEntry]), ← stands.current]
  refine ⟨⟨?_, ?_⟩, rfl⟩
  · simp [deckOf, entriesOf, opens, ParsedDeck.empty]
  · simp [sectionAfter, opens]

/-- Any other line belongs to the deck that the reader is in. -/
theorem StandsIn.line_goesOn (stands : reading.StandsIn seen)
    (within : DecklistSection.ofHeader? text = some .deck → hasEntry seen = false) :
    (reading.line text).StandsIn (seen ++ [text]) ∧
      (reading.line text).finished.decks = reading.finished.decks := by
  have same : (reading.line text).finished.decks = reading.finished.decks := by
    by_cases opens : DecklistSection.ofHeader? text = some .deck
    · have noEntry : reading.current.isEmpty = true := by
        rw [stands.current, isEmpty_deckOf, within opens]
        rfl
      rw [line_of_header opens, header, if_neg (by simp [noEntry])]
    · exact (stays_line reading opens).1
  have keeps := keepsTo_line reading text
  refine ⟨⟨ParsedDeck.ext_entries fun wanted => ?_, ?_⟩, same⟩
  · -- The decks before stay, so what the line adds is in the current one.
    have kept := keeps.entries wanted
    rw [entries, entries, same, List.flatMap_append, List.flatMap_append, List.append_assoc] at kept
    have added := List.append_cancel_left kept
    rw [List.flatMap_singleton, List.flatMap_singleton] at added
    rw [added, entries_deckOf, entriesOf_append, ← entries_deckOf, ← stands.current, ← stands.part]
  · rw [keeps.part, stands.part, sectionAfter, sectionAfter, sectionAfter, List.foldl_append]

/-- **A reader divides the lines into decks.** -/
theorem StandsIn.exists_divides (stands : reading.StandsIn seen) (whole : IsWhole seen)
    (lines : List (List Char)) :
    ∃ decks, Divides (seen ++ lines) decks ∧
      (lines.foldl line reading).finish.decks =
        reading.finished.decks ++ (decks.filter hasEntry).map deckOf := by
  induction lines generalizing seen reading with
  | nil =>
    refine ⟨[seen], by simpa using Divides.last whole, ?_⟩
    rw [List.foldl_nil, finish, stands.current, isEmpty_deckOf]
    cases filled : hasEntry seen <;> simp [filled]
  | cons text rest ih =>
    rw [List.foldl_cons]
    by_cases begins : DecklistSection.ofHeader? text = some .deck ∧ hasEntry seen
    · obtain ⟨opens, filled⟩ := begins
      obtain ⟨standsNext, grown⟩ := stands.line_begins filled opens
      obtain ⟨decks, onwards, read⟩ := ih standsNext (isWhole_singleton text)
      refine ⟨seen :: decks, .next whole filled opens rfl onwards, ?_⟩
      rw [read, grown, List.filter_cons_of_pos filled, List.map_cons, List.append_assoc]
      rfl
    · have within : DecklistSection.ofHeader? text = some .deck → hasEntry seen = false := by
        simpa using begins
      obtain ⟨standsOn, same⟩ := stands.line_goesOn within
      obtain ⟨decks, onwards, read⟩ := ih standsOn (whole.append_singleton within)
      refine ⟨decks, by simpa using onwards, ?_⟩
      rw [read, same]

end Reading

end

/-! ## Whole texts -/

/-- The decks of divided lines have the entries of all lines. -/
theorem allEntries_decks_perm (decks : List (List (List Char))) :
    (((decks.filter hasEntry).map deckOf).flatMap (·.allEntries)).Perm
      (decks.flatten.filterMap parseLine?) := by
  induction decks with
  | nil => exact .refl _
  | cons deck decks ih =>
    rw [List.flatten_cons, List.filterMap_append]
    cases filled : hasEntry deck with
    | true =>
      rw [List.filter_cons_of_pos filled, List.map_cons, List.flatMap_cons]
      exact (allEntries_deckOf_perm deck).append ih
    | false =>
      have nothing : deck.filterMap parseLine? = [] := by
        simpa [hasEntry] using filled
      rwa [List.filter_cons_of_neg (by simp [filled]), nothing, List.nil_append]

/-- What has been read of lines has all of them. -/
structure Conserves (read : ParsedDecklist) (lines : List (List Char)) : Prop where
  /-- The decks are those into which the lines are divided, in their order, but for a last one
  without entries. -/
  decks : ∃ decks, (∀ others, Divides lines others ↔ others = decks) ∧
    read.decks = (decks.filter hasEntry).map deckOf
  /-- Every deck has entries. -/
  filled : ∀ deck ∈ read.decks, deck.isEmpty = false
  /-- The entries of a section are those of its lines, in their order. A line is in the section of
  the last header before it, and in the main deck when there is none. -/
  sections : ∀ part, read.decks.flatMap (·.entries part) = entriesOf part .deck lines
  /-- Every line that is an entry is in one section of one deck. -/
  entries : (read.decks.flatMap (·.allEntries)).Perm (lines.filterMap parseLine?)
  /-- The other lines are errors, except for headers. -/
  errors : read.errors = errorsOf lines
  /-- Entries have a count and a name. -/
  proper : ∀ deck ∈ read.decks, ∀ entry ∈ deck.allEntries, entry.IsProper

/-- **Reading conserves lines.** A text has one list of trimmed lines that are not blank. Every line
that is no header is kept, as an error or as an entry of the deck and of the section that it belongs
to. -/
theorem conserves_ofText (text : String) :
    ∃ lines, (∀ others, Text.LinesOf others text.toList ↔ others = lines) ∧
      (ofText text).Conserves lines := by
  have stands : Reading.start.StandsIn [] := ⟨rfl, rfl⟩
  obtain ⟨decks, divides, read⟩ := stands.exists_divides isWhole_nil (lines text)
  have isRead : (ofText text).decks = (decks.filter hasEntry).map deckOf := read
  have entries := allEntries_decks_perm decks
  rw [divides.flatten_eq, ← isRead] at entries
  refine ⟨lines text, fun others => linesOf_iff_eq_lines, ?_⟩
  refine ⟨⟨decks, fun others => ⟨fun other => other.unique divides, fun same => same ▸ divides⟩,
    isRead⟩, fun deck member => ?_, entries_ofText text, entries, errors_ofText text,
    fun deck member entry isEntry => ?_⟩
  · rw [isRead] at member
    obtain ⟨lines, kept, rfl⟩ := List.mem_map.mp member
    rw [isEmpty_deckOf, (List.mem_filter.mp kept).2]
    rfl
  · have isLine := entries.subset (List.mem_flatMap.mpr ⟨deck, member, isEntry⟩)
    obtain ⟨line, -, reads⟩ := List.mem_filterMap.mp isLine
    exact DecklistLine.isProper_of_parse? (Option.ite_none_left_eq_some.mp reads).2

/-- Two decks with headers in any case, a line that is no entry, and a header at the end. -/
def twoPasted : String :=
  "3 Forest (FDN) 280\n\n COMMANDER\r\n1 Alpha\ncompanion\n1 Beta\nDeck\nno entry\n" ++
    "\t2 Gamma \nSideboard\n1 Delta\n \nDeck"

theorem conserves_ofText_twoPasted :
    let lines := ["3 Forest (FDN) 280".toList, "COMMANDER".toList, "1 Alpha".toList,
      "companion".toList, "1 Beta".toList, "Deck".toList, "no entry".toList, "2 Gamma".toList,
      "Sideboard".toList, "1 Delta".toList, "Deck".toList]
    Text.LinesOf lines twoPasted.toList ∧ (ofText twoPasted).Conserves lines ∧
      ofText twoPasted =
        ⟨[⟨[⟨"Alpha", 1⟩], [⟨"Beta", 1⟩], [⟨"Forest", 3⟩], []⟩,
          ⟨[], [], [⟨"Gamma", 2⟩], [⟨"Delta", 1⟩]⟩], ["no entry"]⟩ := by
  intro lines
  have isLines : Text.LinesOf lines twoPasted.toList :=
    linesOf_iff_eq_lines.mpr (by decide +kernel)
  obtain ⟨found, every, conserves⟩ := conserves_ofText twoPasted
  obtain rfl := (every lines).mp isLines
  exact ⟨isLines, conserves, by decide +kernel⟩

end ParsedDecklist

end DeckBuilder
