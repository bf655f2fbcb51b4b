import DeckBuilder.Decklist.Parser
import DeckBuilder.Proofs.Text.Pieces

/-! # The sections of a decklist

Every line of a decklist is a header, an entry of the section it stands in, or an error. Reading
keeps all entries and errors in the order of the lines. An entry belongs to the deck that is ended
by the next header of a main deck.
-/

namespace DeckBuilder

/-! ## Decks -/

namespace ParsedDeck

/-- The entries of a section. -/
def entries (deck : ParsedDeck) : DecklistSection → List DecklistLine
  | .commander => deck.commander
  | .companion => deck.companion
  | .deck => deck.deck
  | .sideboard => deck.sideboard

theorem entries_empty (part : DecklistSection) : empty.entries part = [] := by
  cases part <;> rfl

theorem entries_add (deck : ParsedDeck) (entry : DecklistLine) (part wanted : DecklistSection) :
    (deck.add entry part).entries wanted =
      deck.entries wanted ++ if part = wanted then [entry] else [] := by
  cases part <;> cases wanted <;> simp [add, entries]

theorem isEmpty_iff (deck : ParsedDeck) : deck.isEmpty ↔ ∀ part, deck.entries part = [] := by
  simp only [isEmpty, Bool.and_eq_true, List.isEmpty_iff]
  constructor
  · rintro ⟨⟨⟨commander, companion⟩, main⟩, sideboard⟩ part
    cases part <;> assumption
  · intro none
    exact ⟨⟨⟨none .commander, none .companion⟩, none .deck⟩, none .sideboard⟩

end ParsedDeck

namespace ParsedDecklist

/-! ## Lines -/

/-- The reader goes through the lines that a text has. -/
theorem linesOf_iff_eq_lines {text : String} {others : List (List Char)} :
    Text.LinesOf others text.toList ↔ others = lines text :=
  Text.linesOf_iff

/-- The section in which the lines leave a reader that starts in a section. -/
def sectionAfter (part : DecklistSection) (lines : List (List Char)) : DecklistSection :=
  lines.foldl (fun part line => (DecklistSection.ofHeader? line).getD part) part

/-- The entries of a section among lines, the first of which stand in the section `part`. -/
def entriesOf (wanted : DecklistSection) : DecklistSection → List (List Char) → List DecklistLine
  | _, [] => []
  | part, line :: rest =>
    match DecklistSection.ofHeader? line with
    | some next => entriesOf wanted next rest
    | none =>
      (if part = wanted then (DecklistLine.parse? line).toList else []) ++
        entriesOf wanted part rest

/-- The lines that are neither headers nor entries. -/
def errorsOf (lines : List (List Char)) : List String :=
  (lines.filter fun line =>
    (DecklistSection.ofHeader? line).isNone && (DecklistLine.parse? line).isNone).map String.ofList

theorem entriesOf_append (wanted part : DecklistSection) (first second : List (List Char)) :
    entriesOf wanted part (first ++ second) =
      entriesOf wanted part first ++ entriesOf wanted (sectionAfter part first) second := by
  induction first generalizing part with
  | nil => rfl
  | cons line rest ih =>
    cases header : DecklistSection.ofHeader? line with
    | some next => simp [entriesOf, sectionAfter, header, ih]
    | none => simp [entriesOf, sectionAfter, header, ih]

/-- The last of the lines seen is an entry of the section. -/
def EndsInEntry (seen : List (List Char)) (part : DecklistSection) (entry : DecklistLine) : Prop :=
  ∃ before line, seen = before ++ [line] ∧ DecklistSection.ofHeader? line = none ∧
    DecklistLine.parse? line = some entry ∧ sectionAfter .deck before = part

/-- The lines before the first header of a main deck. -/
def beforeDeckHeader (lines : List (List Char)) : List (List Char) :=
  lines.takeWhile fun line => DecklistSection.ofHeader? line != some .deck

theorem beforeDeckHeader_isPrefix (lines : List (List Char)) : beforeDeckHeader lines <+: lines :=
  List.takeWhile_prefix _

theorem entriesOf_of_endsInEntry {seen : List (List Char)} {part : DecklistSection}
    {entry : DecklistLine} (ends : EndsInEntry seen part entry) :
    (∃ earlier, entriesOf part .deck seen = earlier ++ [entry]) ∧
      sectionAfter .deck seen = part := by
  obtain ⟨before, line, rfl, noHeader, parsed, stands⟩ := ends
  refine ⟨⟨entriesOf part .deck before, ?_⟩, ?_⟩
  · rw [entriesOf_append, stands]
    simp [entriesOf, noHeader, parsed]
  · simp [sectionAfter, noHeader] at stands ⊢
    exact stands

/-! ## Reading -/

namespace Reading

variable {reading : Reading} {text : List Char}

theorem line_of_header {part : DecklistSection}
    (isHeader : DecklistSection.ofHeader? text = some part) :
    reading.line text = reading.header part := by
  rw [line, isHeader]

theorem line_of_entry (noHeader : DecklistSection.ofHeader? text = none) {entry : DecklistLine}
    (parsed : DecklistLine.parse? text = some entry) :
    reading.line text = { reading with current := reading.current.add entry reading.part } := by
  rw [line, noHeader]
  simp only [parsed]

theorem line_of_error (noHeader : DecklistSection.ofHeader? text = none)
    (unread : DecklistLine.parse? text = none) :
    reading.line text =
      { reading with
        finished := { reading.finished with
          errors := reading.finished.errors ++ [String.ofList text] } } := by
  rw [line, noHeader]
  simp only [unread]

/-- The entries of a section that have been read. -/
def entries (reading : Reading) (part : DecklistSection) : List DecklistLine :=
  (reading.finished.decks ++ [reading.current]).flatMap (·.entries part)

/-- A reader keeps to the lines: its section, entries and errors are those of the lines. -/
structure KeepsTo (before after : Reading) (lines : List (List Char)) : Prop where
  part : after.part = sectionAfter before.part lines
  entries : ∀ wanted,
    after.entries wanted = before.entries wanted ++ entriesOf wanted before.part lines
  errors : after.finished.errors = before.finished.errors ++ errorsOf lines

theorem entries_start (part : DecklistSection) : start.entries part = [] := by
  cases part <;> rfl

theorem entries_header (part wanted : DecklistSection) :
    (reading.header part).entries wanted = reading.entries wanted := by
  rw [header]
  split
  · simp [entries, ParsedDeck.entries_empty]
  · rfl

theorem keepsTo_line (reading : Reading) (text : List Char) :
    reading.KeepsTo (reading.line text) [text] := by
  cases isHeader : DecklistSection.ofHeader? text with
  | some part =>
    rw [line_of_header isHeader]
    refine ⟨?_, fun wanted => ?_, ?_⟩
    · rw [header]
      split <;> simp [sectionAfter, isHeader]
    · simp [entries_header, entriesOf, isHeader]
    · rw [header]
      split <;> simp [errorsOf, isHeader]
  | none =>
    cases parsed : DecklistLine.parse? text with
    | some entry =>
      rw [line_of_entry isHeader parsed]
      refine ⟨?_, fun wanted => ?_, ?_⟩
      · simp [sectionAfter, isHeader]
      · simp [entries, ParsedDeck.entries_add, entriesOf, isHeader, parsed]
      · simp [errorsOf, isHeader, parsed]
    | none =>
      rw [line_of_error isHeader parsed]
      refine ⟨?_, fun wanted => ?_, ?_⟩
      · simp [sectionAfter, isHeader]
      · simp [entries, entriesOf, isHeader, parsed]
      · simp [errorsOf, isHeader, parsed]

theorem KeepsTo.trans {first second third : Reading} {earlier later : List (List Char)}
    (left : first.KeepsTo second earlier) (right : second.KeepsTo third later) :
    first.KeepsTo third (earlier ++ later) where
  part := by
    rw [right.part, left.part, sectionAfter, sectionAfter, sectionAfter, List.foldl_append]
  entries wanted := by
    rw [right.entries, left.entries, left.part, entriesOf_append, List.append_assoc]
  errors := by
    rw [right.errors, left.errors, errorsOf, errorsOf, errorsOf, List.filter_append,
      List.map_append, List.append_assoc]

/-- **A reader loses no line.** -/
theorem keepsTo_foldl (reading : Reading) (lines : List (List Char)) :
    reading.KeepsTo (lines.foldl line reading) lines := by
  induction lines generalizing reading with
  | nil => exact ⟨rfl, fun _ => (List.append_nil _).symm, (List.append_nil _).symm⟩
  | cons text rest ih => exact (keepsTo_line reading text).trans (ih (reading.line text))

/-- Nothing is lost when the text ends. -/
theorem entries_finish (reading : Reading) (part : DecklistSection) :
    reading.finish.decks.flatMap (·.entries part) = reading.entries part := by
  rw [finish]
  split
  · rename_i nothing
    have none := (ParsedDeck.isEmpty_iff _).mp nothing part
    simp [entries, none]
  · rfl

theorem errors_finish (reading : Reading) : reading.finish.errors = reading.finished.errors := by
  rw [finish]
  split <;> rfl

/-! ## The deck of an entry -/

theorem decks_header_grow (reading : Reading) (part : DecklistSection) :
    reading.finished.decks <+: (reading.header part).finished.decks := by
  rw [header]
  split
  · exact List.prefix_append _ _
  · exact List.prefix_rfl

theorem decks_line_grow (reading : Reading) (text : List Char) :
    reading.finished.decks <+: (reading.line text).finished.decks := by
  cases isHeader : DecklistSection.ofHeader? text with
  | some part =>
    rw [line_of_header isHeader]
    exact decks_header_grow reading part
  | none =>
    cases parsed : DecklistLine.parse? text with
    | some entry =>
      rewrite [line_of_entry isHeader parsed]
      exact List.prefix_rfl
    | none =>
      rewrite [line_of_error isHeader parsed]
      exact List.prefix_rfl

/-- Decks that are finished stay. -/
theorem decks_foldl_grow (reading : Reading) (lines : List (List Char)) :
    reading.finished.decks <+: (lines.foldl line reading).finish.decks := by
  induction lines generalizing reading with
  | nil =>
    rw [List.foldl_nil, finish]
    split
    · exact List.prefix_rfl
    · exact List.prefix_append _ _
  | cons text rest ih => exact (decks_line_grow reading text).trans (ih (reading.line text))

/-- Without a header of a main deck the reader stays in its deck. -/
theorem stays_line (reading : Reading) {text : List Char}
    (noDeck : DecklistSection.ofHeader? text ≠ some .deck) :
    (reading.line text).finished.decks = reading.finished.decks ∧
      ∀ part, reading.current.entries part <+: (reading.line text).current.entries part := by
  cases isHeader : DecklistSection.ofHeader? text with
  | some part =>
    have other : part ≠ .deck := fun same => noDeck (isHeader.trans (congrArg some same))
    rw [line_of_header isHeader, header, if_neg (by simp [other])]
    exact ⟨rfl, fun _ => List.prefix_rfl⟩
  | none =>
    cases parsed : DecklistLine.parse? text with
    | some entry =>
      rw [line_of_entry isHeader parsed]
      refine ⟨rfl, fun part => ?_⟩
      rw [ParsedDeck.entries_add]
      exact List.prefix_append _ _
    | none =>
      rw [line_of_error isHeader parsed]
      exact ⟨rfl, fun _ => List.prefix_rfl⟩

theorem stays_foldl (reading : Reading) {lines : List (List Char)}
    (noDeck : ∀ line ∈ lines, DecklistSection.ofHeader? line ≠ some .deck) :
    (lines.foldl line reading).finished.decks = reading.finished.decks ∧
      ∀ part, reading.current.entries part <+: (lines.foldl line reading).current.entries part := by
  induction lines generalizing reading with
  | nil => exact ⟨rfl, fun _ => List.prefix_rfl⟩
  | cons text rest ih =>
    obtain ⟨here, later⟩ := List.forall_mem_cons.mp noDeck
    obtain ⟨sameDecks, grown⟩ := stays_line reading here
    obtain ⟨stillSame, grownOn⟩ := ih (reading.line text) later
    exact ⟨stillSame.trans sameDecks, fun part => (grown part).trans (grownOn part)⟩

/-- The deck that a reader is in ends with the text or before a header of a main deck. -/
theorem exists_decks_eq (reading : Reading) (filled : reading.current.isEmpty = false)
    {lines : List (List Char)}
    (ended : ∀ line ∈ lines.head?, DecklistSection.ofHeader? line = some .deck) :
    ∃ later, (lines.foldl line reading).finish.decks =
      reading.finished.decks ++ reading.current :: later := by
  cases lines with
  | nil =>
    refine ⟨[], ?_⟩
    rw [List.foldl_nil, finish, filled, if_neg Bool.false_ne_true]
  | cons text rest =>
    obtain ⟨later, split⟩ := decks_foldl_grow (reading.line text) rest
    refine ⟨later, ?_⟩
    rw [List.foldl_cons, ← split, line_of_header (ended text rfl), header,
      if_pos (by simp [filled]), List.append_assoc, List.singleton_append]

theorem mem_current_of_endsInEntry {seen : List (List Char)} {part : DecklistSection}
    {entry : DecklistLine} (ends : EndsInEntry seen part entry) :
    entry ∈ (seen.foldl line .start).current.entries part := by
  obtain ⟨before, text, rfl, noHeader, parsed, stands⟩ := ends
  have atPart : (before.foldl line .start).part = part :=
    (keepsTo_foldl .start before).part.trans stands
  rw [List.foldl_append, List.foldl_cons, List.foldl_nil, line_of_entry noHeader parsed,
    ParsedDeck.entries_add, if_pos atPart]
  exact List.mem_append_right _ List.mem_cons_self

/-- **An entry belongs to the deck that ends before the next header of a main deck.** The decks up
to this one have the entries of the lines up to there. -/
theorem exists_deck_of_endsInEntry {seen : List (List Char)} {part : DecklistSection}
    {entry : DecklistLine} (ends : EndsInEntry seen part entry) (after : List (List Char)) :
    ∃ earlier deck later,
      ((seen ++ after).foldl line .start).finish.decks = earlier ++ deck :: later ∧
        entry ∈ deck.entries part ∧
        ∀ wanted, (earlier ++ [deck]).flatMap (·.entries wanted) =
          entriesOf wanted .deck (seen ++ beforeDeckHeader after) := by
  let ended := (seen ++ beforeDeckHeader after).foldl line .start
  let rest := after.dropWhile fun line => DecklistSection.ofHeader? line != some .deck
  have whole : seen ++ after = seen ++ beforeDeckHeader after ++ rest := by
    rw [List.append_assoc, beforeDeckHeader, List.takeWhile_append_dropWhile]
  have sameDeck : ∀ line ∈ beforeDeckHeader after, DecklistSection.ofHeader? line ≠ some .deck := by
    intro line member
    have passed := List.mem_takeWhile_imp member
    simpa using passed
  have present : entry ∈ ended.current.entries part := by
    have grown := (stays_foldl (seen.foldl line .start) sameDeck).2 part
    rw [← List.foldl_append] at grown
    exact grown.subset (mem_current_of_endsInEntry ends)
  have filled : ended.current.isEmpty = false := by
    rw [← Bool.not_eq_true, ParsedDeck.isEmpty_iff]
    intro none
    rw [none part] at present
    cases present
  have ends : ∀ line ∈ rest.head?, DecklistSection.ofHeader? line = some .deck := by
    intro line first
    simpa using Lists.of_mem_head?_dropWhile first
  obtain ⟨later, split⟩ := exists_decks_eq ended filled ends
  refine ⟨ended.finished.decks, ended.current, later, ?_, present, fun wanted => ?_⟩
  · rw [whole, List.foldl_append, split]
  · have kept := (keepsTo_foldl .start (seen ++ beforeDeckHeader after)).entries wanted
    rwa [entries_start, List.nil_append] at kept

end Reading

/-! ## Whole texts -/

theorem entries_ofText (text : String) (part : DecklistSection) :
    (ofText text).decks.flatMap (·.entries part) = entriesOf part .deck (lines text) := by
  rw [ofText, Reading.entries_finish, (Reading.keepsTo_foldl .start (lines text)).entries,
    Reading.entries_start, List.nil_append]
  rfl

theorem errors_ofText (text : String) : (ofText text).errors = errorsOf (lines text) := by
  rw [ofText, Reading.errors_finish, (Reading.keepsTo_foldl .start (lines text)).errors]
  rfl

end ParsedDecklist

end DeckBuilder
