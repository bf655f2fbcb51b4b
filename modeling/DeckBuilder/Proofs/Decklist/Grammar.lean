import DeckBuilder.Proofs.Decklist.Lines
import DeckBuilder.Proofs.Decklist.Sections
import DeckBuilder.Proofs.Text.Pattern

/-! # The grammar of lines

A line that is no header is an entry when it is a count, blanks and more. The name is what is left
without a note of a printing at the end. Lines are read as by two patterns, of which the second one
never comes into play.
-/

namespace DeckBuilder

open Text

namespace DecklistLine

/-! ## Entries -/

/-- The line is the numeral of a positive 32-bit number, blanks and more. -/
def IsCounted (line : List Char) : Prop :=
  ∃ count digits gap rest, line = digits ++ (gap ++ rest) ∧ Counts count digits gap ∧ rest ≠ []

theorem exists_splitCount? {digits gap rest : List Char}
    (numeral : digits ≠ [] ∧ ∀ c ∈ digits, isDecimalDigit c)
    (spaced : gap ≠ [] ∧ ∀ c ∈ gap, isBlank c) (some : rest ≠ [])
    (trimmed : Trimmed (digits ++ (gap ++ rest))) :
    ∃ name, splitCount? (digits ++ (gap ++ rest)) = .some (digits, name) := by
  have ends : ∀ c ∈ rest.getLast?, isBlank c = false := by
    intro c last
    apply trimmed.2
    rw [← List.append_assoc, List.getLast?_append_of_ne_nil _ some]
    exact last
  obtain ⟨more, name, rfl, blank, named, plain⟩ := exists_trimStart some ends
  refine ⟨name, splitCount?_eq_some_iff.mpr ⟨gap ++ more, by simp, numeral, ⟨?_, ?_⟩, named, plain⟩⟩
  · exact List.append_ne_nil_of_left_ne_nil spaced.1 more
  · exact List.forall_mem_append.mpr ⟨spaced.2, blank⟩

theorem head?_withoutNote (text : List Char) : (withoutNote text).head? = text.head? := by
  cases text with
  | nil => rfl
  | cons c rest =>
    rw [withoutNote]
    split <;> rfl

theorem withoutNote_ne_nil {text : List Char} (some : text ≠ []) : withoutNote text ≠ [] := by
  rw [Ne, ← List.head?_eq_none_iff, head?_withoutNote]
  exact List.head?_eq_none_iff.not.mpr some

theorem isSome_parse?_iff {line : List Char} (trimmed : Trimmed line) :
    (parse? line).isSome ↔ IsCounted line := by
  constructor
  · intro parsed
    obtain ⟨entry, parsed⟩ := Option.isSome_iff_exists.mp parsed
    obtain ⟨⟨digits, name⟩, split, made⟩ := Option.bind_eq_some_iff.mp parsed
    obtain ⟨gap, rfl, -, ⟨some, blank⟩, named, -⟩ := splitCount?_eq_some_iff.mp split
    obtain ⟨n, denotes, made⟩ := Option.bind_eq_some_iff.mp made
    obtain ⟨⟨positive, small, -⟩, -⟩ := Option.ite_none_right_eq_some.mp made
    have count : (UInt32.ofNat n).toNat = n := UInt32.toNat_ofNat_of_lt' small
    refine ⟨UInt32.ofNat n, digits, gap, name, rfl, ⟨?_, ?_, some, blank⟩, named⟩
    · rw [count]
      exact natural?_eq_some_iff.mp denotes
    · rwa [UInt32.le_iff_toNat_le, count]
  · rintro ⟨count, digits, gap, rest, rfl, counts, some⟩
    obtain ⟨name, split⟩ :=
      exists_splitCount? (isDecimalDigit_of_denotes counts.denotes) ⟨counts.some, counts.blank⟩
        some trimmed
    obtain ⟨-, -, -, -, named, plain⟩ := splitCount?_eq_some_iff.mp split
    rw [← head?_withoutNote] at plain
    rw [parse?_of_splitCount? split, counts.ofParts? (trim_ne_nil (withoutNote_ne_nil named) plain)]
    rfl

/-! ## Names -/

/-- Every parenthesis that opens is followed by one that closes. -/
def ClosesParentheses (text : List Char) : Prop :=
  ∀ before after, text = before ++ '(' :: after → ')' ∈ after

theorem closesParentheses_iff {text : List Char} :
    ClosesParentheses text ↔ ∀ rest ∈ text.tails, rest.head? = some '(' → ')' ∈ rest.tail := by
  simp only [ClosesParentheses, List.mem_tails]
  constructor
  · rintro closed rest ⟨before, rfl⟩ opens
    obtain ⟨after, rfl⟩ := List.head?_eq_some_iff.mp opens
    exact closed before after rfl
  · rintro closed before after rfl
    exact closed ('(' :: after) (List.suffix_append _ _) rfl

instance (text : List Char) : Decidable (ClosesParentheses text) :=
  decidable_of_iff _ closesParentheses_iff.symm

theorem ClosesParentheses.tail {c : Char} {rest : List Char}
    (closed : ClosesParentheses (c :: rest)) : ClosesParentheses rest :=
  fun before after split => closed (c :: before) after (congrArg (c :: ·) split)

section

variable {text note : List Char}

/-- A note does not begin earlier, in a text before it. -/
theorem not_isNote_append (some : text ≠ []) (plain : ∀ c ∈ text.getLast?, isBlank c = false)
    (closed : ClosesParentheses text) (isNote : IsNote note) : ¬ IsNote (text ++ note) := by
  have opens : '(' ∈ note := by
    obtain ⟨gap, printing, space, number, rfl, -⟩ := isNote
    exact List.mem_append_right _ List.mem_cons_self
  rintro ⟨gap, printing, space, number, same, ⟨-, blank⟩, single, ⟨-, blankSpace⟩, -, digits⟩
  -- The text does not end in a blank, so that the parenthesis opens in it.
  have beyond : ¬ text <+: gap := by
    intro inside
    have last := plain _ (List.getLast?_eq_some_getLast some)
    rw [blank _ (inside.subset (List.getLast_mem some))] at last
    cases last
  rcases List.append_eq_append_iff.mp same with ⟨extra, further, -⟩ | ⟨extra, rfl, split⟩
  · exact beyond ⟨extra, further.symm⟩
  cases extra with
  | nil => exact beyond (by simp)
  | cons c more =>
    rw [List.cons_append] at split
    obtain ⟨rfl, within⟩ := List.cons.inj split
    have closes : ')' ∈ more := closed gap more rfl
    -- It closes in the text too, and no parenthesis opens behind.
    have behind := Lists.suffix_of_append_cons_eq within single closes
    rcases List.mem_append.mp (behind.subset opens) with isSpace | isDigit
    · exact absurd (blankSpace _ isSpace) (by decide)
    · exact absurd (digits _ isDigit) (by decide)

/-- A note is left out behind a name that closes its parentheses. -/
theorem withoutNote_append (some : text ≠ []) (plain : ∀ c ∈ text.getLast?, isBlank c = false)
    (closed : ClosesParentheses text) (isNote : IsNote note) :
    withoutNote (text ++ note) = text := by
  induction text with
  | nil => exact absurd rfl some
  | cons c rest ih =>
    cases rest with
    | nil => rw [List.singleton_append, withoutNote, if_pos (isPrintingNote_of_isNote isNote)]
    | cons d rest =>
      rw [List.getLast?_cons_of_ne_nil (List.cons_ne_nil d rest)] at plain
      have noNote : ¬ isPrintingNote (d :: rest ++ note) := fun reads =>
        not_isNote_append (List.cons_ne_nil d rest) plain closed.tail isNote
          (isNote_of_isPrintingNote reads)
      rw [List.cons_append, withoutNote, if_neg noNote,
        ih (List.cons_ne_nil d rest) plain closed.tail]

end

/-! ## Patterns of lines -/

/-- Blanks, a printing in parentheses, blanks and a collector number. -/
def notePattern : Pattern :=
  .seq (.most isBlank) (.seq (.char '(') (.seq (.optional (.most (· ≠ ')')))
    (.seq (.char ')') (.seq (.most isBlank) (.most isDecimalDigit)))))

/-- A name of as few characters as possible, perhaps with a note. -/
def namePattern : Pattern :=
  .seq (.group (.fewest (· ≠ '\n'))) (.optional notePattern)

/-- A count and what stands behind it. -/
def countPattern (rest : Pattern) : Pattern :=
  .seq (.group (.most isDecimalDigit)) (.seq (.most isBlank) rest)

/-- A line with or without a note, `^(\d+)\s+(.+?)(?:\s+\([^)]*\)\s+\d+)?$`. -/
def arenaLine : Pattern :=
  countPattern namePattern

/-- A line as it stands, `^(\d+)\s+(.+)$`. -/
def simpleLine : Pattern :=
  countPattern (.group (.most (· ≠ '\n')))

/-- The entry of the captured parts of a line. -/
def ofCaptures? : List (List Char) → Option DecklistLine
  | digits :: name :: _ => ofParts? digits name
  | _ => none

theorem accepts_notePattern_iff {text : List Char} : notePattern.Accepts text ↔ IsNote text := by
  constructor
  · rintro ⟨gap, -, rfl, isGap, -, -, rfl, rfl, printing, -, rfl, isPrinting, -, -, rfl, rfl, space,
      number, rfl, isSpace, isNumber⟩
    refine ⟨gap, printing, space, number, by simp, isGap, ?_, isSpace, isNumber⟩
    rintro member
    rcases isPrinting with ⟨-, others⟩ | rfl
    · simpa using others _ member
    · cases member
  · rintro ⟨gap, printing, space, number, rfl, isGap, single, isSpace, isNumber⟩
    refine ⟨gap, _, rfl, isGap, ['('], _, rfl, rfl, printing, _, rfl, ?_, [')'], _, rfl, rfl, space,
      number, rfl, isSpace, isNumber⟩
    by_cases none : printing = []
    · exact .inr none
    · exact .inl ⟨none, fun c member => decide_eq_true (ne_of_mem_of_not_mem member single)⟩

/-- What is captured of a whole text by a note that need not be there. -/
theorem captures?_optional_notePattern (text : List Char) :
    (Pattern.optional notePattern).captures? text =
      if text = [] ∨ isPrintingNote text then some [] else none := by
  have accepts_iff : (Pattern.optional notePattern).Accepts text ↔
      text = [] ∨ isPrintingNote text := by
    rw [Pattern.Accepts, accepts_notePattern_iff, or_comm]
    exact or_congr_right ⟨isPrintingNote_of_isNote, isNote_of_isPrintingNote⟩
  split
  · rename_i present
    exact Pattern.captures?_of_groups_eq_zero rfl (accepts_iff.mpr present)
  · rename_i absent
    rwa [← accepts_iff, ← Pattern.isSome_captures?_iff, Option.not_isSome_iff_eq_none] at absent

/-- As few characters as possible are those up to the first note. -/
theorem captures?_namePattern {text : List Char} (some : text ≠ []) (single : '\n' ∉ text) :
    namePattern.captures? text = .some [withoutNote text] := by
  induction text with
  | nil => exact absurd rfl some
  | cons c rest ih =>
    obtain ⟨other, single⟩ := not_or.mp (List.mem_cons.not.mp single)
    rw [namePattern, Pattern.captures?_fewest_cons (decide_eq_true (Ne.symm other)),
      ← namePattern, captures?_optional_notePattern, withoutNote]
    by_cases note : isPrintingNote rest
    · simp [note]
    · by_cases last : rest = []
      · subst last
        rfl
      · simp [note, last, ih last single]

section

variable {pattern : Pattern} {line digits name : List Char}

/-- What is captured behind a count is captured of the line. -/
theorem captures?_countPattern {captured : List (List Char)}
    (split : splitCount? line = some (digits, name))
    (goesOn : pattern.captures? name = some captured) :
    (countPattern pattern).captures? line = some (digits :: captured) := by
  obtain ⟨gap, rfl, ⟨counted, numeral⟩, ⟨someGap, blank⟩, -, plain⟩ :=
    splitCount?_eq_some_iff.mp split
  have stops : ∀ c ∈ (gap ++ name).head?, isDecimalDigit c = false := by
    intro c first
    rw [List.head?_append_of_ne_nil _ someGap] at first
    rw [← Bool.not_eq_true]
    intro isDigit
    have spaced := blank c (List.mem_of_mem_head? first)
    rw [not_isBlank_of_isDecimalDigit isDigit] at spaced
    cases spaced
  have count : ((Pattern.group (.most isDecimalDigit)).ways (digits ++ (gap ++ name))).head? =
      some ⟨digits, [digits], gap ++ name⟩ := by
    rw [Pattern.head?_ways_group, Pattern.head?_ways_most counted numeral stops]
    rfl
  have space := Pattern.head?_ways_most someGap blank plain
  exact Pattern.captures?_seq_of_head? count (Pattern.captures?_seq_of_head? space goesOn)

theorem accepts_countPattern_iff :
    (countPattern pattern).Accepts line ↔
      ∃ digits gap rest, line = digits ++ (gap ++ rest) ∧
        (digits ≠ [] ∧ ∀ c ∈ digits, isDecimalDigit c) ∧ (gap ≠ [] ∧ ∀ c ∈ gap, isBlank c) ∧
          pattern.Accepts rest := by
  constructor
  · rintro ⟨digits, -, rfl, numeral, gap, rest, rfl, spaced, accepts⟩
    exact ⟨digits, gap, rest, rfl, numeral, spaced, accepts⟩
  · rintro ⟨digits, gap, rest, rfl, numeral, spaced, accepts⟩
    exact ⟨digits, _, rfl, numeral, gap, rest, rfl, spaced, accepts⟩

theorem accepts_namePattern_iff (single : '\n' ∉ name) : namePattern.Accepts name ↔ name ≠ [] := by
  constructor
  · rintro ⟨before, after, rfl, ⟨some, -⟩, -⟩
    exact List.append_ne_nil_of_left_ne_nil some after
  · intro some
    rw [← Pattern.isSome_captures?_iff, captures?_namePattern some single]
    rfl

/-- Both patterns have the same lines. -/
theorem accepts_simpleLine_iff (single : '\n' ∉ line) :
    simpleLine.Accepts line ↔ arenaLine.Accepts line := by
  rw [simpleLine, arenaLine, accepts_countPattern_iff, accepts_countPattern_iff]
  refine exists_congr fun digits => exists_congr fun gap => exists_congr fun rest => ?_
  refine and_congr_right fun split => and_congr_right fun _ => and_congr_right fun _ => ?_
  have inside : '\n' ∉ rest := by
    intro member
    rw [split] at single
    exact single (List.mem_append_right _ (List.mem_append_right _ member))
  rw [accepts_namePattern_iff inside, Pattern.Accepts, Pattern.Accepts]
  refine and_iff_left fun c member => ?_
  exact decide_eq_true (ne_of_mem_of_not_mem member inside)

theorem isSome_captures?_simpleLine (single : '\n' ∉ line) :
    (simpleLine.captures? line).isSome = (arenaLine.captures? line).isSome := by
  rw [Bool.eq_iff_iff, Pattern.isSome_captures?_iff, Pattern.isSome_captures?_iff,
    accepts_simpleLine_iff single]

/-- **Lines are read as by the pattern.** -/
theorem parse?_eq_bind_captures? (single : '\n' ∉ line) (trimmed : Trimmed line) :
    parse? line = (arenaLine.captures? line).bind ofCaptures? := by
  cases split : splitCount? line with
  | some parts =>
    obtain ⟨digits, name⟩ := parts
    obtain ⟨gap, whole, -, -, named, -⟩ := splitCount?_eq_some_iff.mp split
    have inside : '\n' ∉ name := by
      intro member
      rw [whole] at single
      exact single (List.mem_append_right _ (List.mem_append_right _ member))
    rw [parse?_of_splitCount? split, arenaLine,
      captures?_countPattern split (captures?_namePattern named inside)]
    rfl
  | none =>
    have refused : arenaLine.captures? line = none := by
      rw [← Option.not_isSome_iff_eq_none, Pattern.isSome_captures?_iff, arenaLine,
        accepts_countPattern_iff]
      rintro ⟨digits, gap, rest, rfl, numeral, spaced, before, after, rfl, ⟨some, -⟩, -⟩
      obtain ⟨name, found⟩ := exists_splitCount? numeral spaced
        (List.append_ne_nil_of_left_ne_nil some after) trimmed
      rw [split] at found
      cases found
    rw [parse?, split, refused]
    rfl

end

end DecklistLine

namespace ParsedDecklist.Reading

open DecklistLine

/-! ## Reading -/

/-- Every reader takes the line for an entry of the section that it is in. -/
def Enters (line : List Char) (entry : DecklistLine) : Prop :=
  ∀ reading : Reading,
    reading.line line = { reading with current := reading.current.add entry reading.part }

/-- Every reader takes the line for an error. -/
def Refuses (line : List Char) : Prop :=
  ∀ reading : Reading,
    reading.line line =
      { reading with
        finished := { reading.finished with
          errors := reading.finished.errors ++ [String.ofList line] } }

theorem exists_enters_iff {line : List Char} (noHeader : DecklistSection.ofHeader? line = none) :
    (∃ entry, Enters line entry) ↔ (parse? line).isSome := by
  constructor
  · rintro ⟨entry, enters⟩
    rw [Option.isSome_iff_ne_none]
    intro unread
    have refused := (line_of_error noHeader unread).symm.trans (enters .start)
    simp [start] at refused
  · intro parsed
    obtain ⟨entry, parsed⟩ := Option.isSome_iff_exists.mp parsed
    exact ⟨entry, fun _ => line_of_entry noHeader parsed⟩

/-- **The grammar of lines.** A line that is no header is an entry when it is a positive 32-bit
number, blanks and more, and an error otherwise. A name that does not end in a note is read back
behind its count, and one that closes its parentheses is read back in front of any note. Lines are
read as by two patterns in turn, of which the second one has no more lines than the first. -/
theorem line_grammar :
    (∀ line, Trimmed line → DecklistSection.ofHeader? line = none →
      ((∃ entry, Enters line entry) ↔ IsCounted line) ∧ (¬ IsCounted line → Refuses line)) ∧
    (∀ count digits gap name, Counts count digits gap → name ≠ [] → Trimmed name →
      (¬ EndsInNote name → Enters (digits ++ (gap ++ name)) ⟨String.ofList name, count⟩) ∧
      ∀ note, IsNote note → ClosesParentheses name →
        Enters (digits ++ (gap ++ (name ++ note))) ⟨String.ofList name, count⟩) ∧
    ∀ line, '\n' ∉ line →
      ((simpleLine.captures? line).isSome ↔ (arenaLine.captures? line).isSome) ∧
      (arenaLine.captures? line).or (simpleLine.captures? line) = arenaLine.captures? line ∧
      (Trimmed line → parse? line = (arenaLine.captures? line).bind ofCaptures?) := by
  refine ⟨fun line trimmed noHeader => ⟨?_, fun uncounted => ?_⟩,
    fun count digits gap name counts some trimmed =>
      ⟨fun plain => ?_, fun note isNote closed => ?_⟩,
    fun line single => ⟨?_, ?_, parse?_eq_bind_captures? single⟩⟩
  · rw [exists_enters_iff noHeader, isSome_parse?_iff trimmed]
  · have unread : parse? line = none := by
      rwa [← isSome_parse?_iff trimmed, Option.not_isSome_iff_eq_none] at uncounted
    exact fun _ => line_of_error noHeader unread
  · have parsed := counts.parse? trimmed.1 (withoutNote_eq_self plain) some trimmed
    exact fun _ => line_of_entry (ofHeader?_of_denotes counts.denotes _) parsed
  · have starts : ∀ c ∈ (name ++ note).head?, isBlank c = false := by
      rw [List.head?_append_of_ne_nil _ some]
      exact trimmed.1
    have parsed :=
      counts.parse? starts (withoutNote_append some trimmed.2 closed isNote) some trimmed
    exact fun _ => line_of_entry (ofHeader?_of_denotes counts.denotes _) parsed
  · rw [isSome_captures?_simpleLine single]
  · have same := isSome_captures?_simpleLine single
    cases arena : arenaLine.captures? line with
    | some captured => rfl
    | none =>
      rw [arena, Option.isSome_none, Option.isSome_eq_false_iff, Option.isNone_iff_eq_none] at same
      rw [same]
      rfl

theorem line_grammar_hazmatSuit :
    (∃ entry, Enters "7 Hazmat Suit (Used)".toList entry) ∧ Refuses "0 Hazmat Suit".toList ∧
      Enters "007 Hazmat Suit (Used)".toList ⟨"Hazmat Suit (Used)", 7⟩ ∧
      Enters "007 Hazmat Suit (Used) (ust) 57".toList ⟨"Hazmat Suit (Used)", 7⟩ ∧
      arenaLine.captures? "007 Hazmat Suit (Used) (ust) 57".toList =
        some ["007".toList, "Hazmat Suit (Used)".toList] ∧
      (simpleLine.captures? "007 Hazmat Suit (Used) (ust) 57".toList).isSome ∧
      parse? "007 Hazmat Suit (Used) (ust) 57".toList = some ⟨"Hazmat Suit (Used)", 7⟩ := by
  have blank : ∀ c ∈ [' '], isBlank c := List.forall_mem_singleton.mpr rfl
  have counts : Counts 7 "007".toList [' '] :=
    ⟨⟨[0, 0, 7], rfl, by decide, by decide, rfl⟩, by decide, by decide, blank⟩
  have single : Counts 7 "7".toList [' '] :=
    ⟨⟨[7], rfl, by decide, by decide, rfl⟩, by decide, by decide, blank⟩
  have uncounted : ¬ IsCounted "0 Hazmat Suit".toList :=
    (isSome_parse?_iff (by decide)).not.mp (by decide +kernel)
  have captured : arenaLine.captures? "007 Hazmat Suit (Used) (ust) 57".toList =
      some ["007".toList, "Hazmat Suit (Used)".toList] := by
    decide +kernel
  obtain ⟨lines, names, patterns⟩ := line_grammar
  have accepted := (lines "7 Hazmat Suit (Used)".toList (by decide) (by decide +kernel)).1
  have refused := (lines "0 Hazmat Suit".toList (by decide) (by decide +kernel)).2
  obtain ⟨plain, noted⟩ := names 7 "007".toList [' '] "Hazmat Suit (Used)".toList counts
    (by decide) (by decide)
  obtain ⟨same, -, parsed⟩ := patterns "007 Hazmat Suit (Used) (ust) 57".toList (by decide)
  refine ⟨accepted.mpr ⟨7, _, _, "Hazmat Suit (Used)".toList, rfl, single, by decide⟩,
    refused uncounted, plain (by decide +kernel), ?_, captured, same.mpr ?_, ?_⟩
  · exact noted " (ust) 57".toList (isNote_of_isPrintingNote (by decide)) (by decide +kernel)
  · rw [captured]
    rfl
  · rw [parsed (by decide), captured]
    decide +kernel

end ParsedDecklist.Reading

end DeckBuilder
