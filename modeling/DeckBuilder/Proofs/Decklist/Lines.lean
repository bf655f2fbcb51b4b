import DeckBuilder.Decklist.Parser
import DeckBuilder.Proofs.Text.Decimal
import DeckBuilder.Proofs.Text.Lowercase
import Mathlib.Data.List.Infix
import Mathlib.Data.List.TakeWhile

/-! # Written lines

A line is split in one way into a numeral, blanks and what stands behind them. So a count, a blank
and a name are read back as they were written, unless the name ends like a printing with its
collector number. Such a line is no header.
-/

namespace DeckBuilder

open Text

namespace DecklistLine

/-! ## Notes of printings -/

theorem afterBlanks?_eq_some_iff {text rest : List Char} :
    afterBlanks? text = some rest ↔
      ∃ gap, text = gap ++ rest ∧ gap ≠ [] ∧ (∀ c ∈ gap, isBlank c) ∧
        ∀ c ∈ rest.head?, isBlank c = false := by
  rw [afterBlanks?]
  constructor
  · intro split
    obtain ⟨opens, dropped⟩ := Option.ite_none_right_eq_some.mp split
    obtain rfl := Option.some_inj.mp dropped
    refine ⟨text.takeWhile isBlank, List.takeWhile_append_dropWhile.symm, ?_,
      fun c => List.mem_takeWhile_imp, fun c => Lists.of_mem_head?_dropWhile⟩
    cases text with
    | nil => cases opens
    | cons c rest =>
      rw [List.takeWhile_cons_of_pos (by simpa using opens)]
      exact List.cons_ne_nil _ _
  · rintro ⟨gap, rfl, some, blank, stops⟩
    obtain ⟨c, others, rfl⟩ := List.exists_cons_of_ne_nil some
    rw [trimStart, List.dropWhile_append_of_pos blank]
    have opens : ((c :: others ++ rest).head?.any isBlank) = true := blank c List.mem_cons_self
    rw [if_pos opens, ← trimStart, trimStart_eq_self stops]

/-- Blanks, a printing in parentheses, blanks and a collector number. -/
def IsNote (text : List Char) : Prop :=
  ∃ gap printing space number,
    text = gap ++ '(' :: (printing ++ ')' :: (space ++ number)) ∧
      (gap ≠ [] ∧ ∀ c ∈ gap, isBlank c) ∧ ')' ∉ printing ∧
        (space ≠ [] ∧ ∀ c ∈ space, isBlank c) ∧ number ≠ [] ∧ ∀ c ∈ number, isDecimalDigit c

/-- The text ends like a printing with its collector number. -/
def EndsInNote (text : List Char) : Prop :=
  ∃ note, IsNote note ∧ note <:+ text

theorem isNote_of_isPrintingNote {text : List Char} (reads : isPrintingNote text) :
    IsNote text := by
  rw [isPrintingNote] at reads
  split at reads
  · rename_i inner opened
    obtain ⟨gap, rfl, some, blank, -⟩ := afterBlanks?_eq_some_iff.mp opened
    split at reads
    · rename_i rest closed
      cases spaced : afterBlanks? rest with
      | none =>
        rw [spaced] at reads
        cases reads
      | some number =>
        obtain ⟨space, rfl, someSpace, blankSpace, -⟩ := afterBlanks?_eq_some_iff.mp spaced
        rw [spaced, Option.any_some, isCollectorNumber, Bool.and_eq_true, List.all_eq_true] at reads
        have whole : inner = inner.takeWhile (· ≠ ')') ++ ')' :: (space ++ number) := by
          rw [← closed, List.takeWhile_append_dropWhile]
        refine ⟨gap, inner.takeWhile (· ≠ ')'), space, number, by rw [← whole], ⟨some, blank⟩, ?_,
          ⟨someSpace, blankSpace⟩, by simpa using reads.1, reads.2⟩
        intro member
        simpa using List.mem_takeWhile_imp member
    · cases reads
  · cases reads

theorem not_isBlank_of_isDecimalDigit {c : Char} (isDigit : isDecimalDigit c) :
    isBlank c = false := by
  have apart : ∀ range ∈ blankRanges, ∀ other ∈ decimalDigitRanges,
      range.2 < other.1 ∨ other.2 < range.1 := by
    decide
  rw [← Bool.not_eq_true]
  intro blank
  rw [isDecimalDigit, any_inside_of_isBlank blank apart] at isDigit
  cases isDigit

theorem isPrintingNote_of_isNote {text : List Char} (isNote : IsNote text) :
    isPrintingNote text := by
  obtain ⟨gap, printing, space, number, rfl, ⟨some, blank⟩, single, ⟨someSpace, blankSpace⟩,
    someDigit, digits⟩ := isNote
  have plain : isBlank '(' = false := by decide
  have opened : afterBlanks? (gap ++ '(' :: (printing ++ ')' :: (space ++ number))) =
      .some ('(' :: (printing ++ ')' :: (space ++ number))) :=
    afterBlanks?_eq_some_iff.mpr ⟨gap, rfl, some, blank, by simpa using plain⟩
  have inside : ∀ c ∈ printing, decide (c ≠ ')') = true := by
    intro c member
    exact decide_eq_true (ne_of_mem_of_not_mem member single)
  have closed : (printing ++ ')' :: (space ++ number)).dropWhile (· ≠ ')') =
      ')' :: (space ++ number) := by
    rw [List.dropWhile_append_of_pos inside]
    rfl
  have spaced : afterBlanks? (space ++ number) = .some number := by
    refine afterBlanks?_eq_some_iff.mpr ⟨space, rfl, someSpace, blankSpace, fun c first => ?_⟩
    exact not_isBlank_of_isDecimalDigit (digits c (List.mem_of_mem_head? first))
  simp only [isPrintingNote, opened, closed, spaced, Option.any_some, isCollectorNumber]
  simpa [someDigit] using digits

theorem endsInNote_iff {text : List Char} :
    EndsInNote text ↔ ∃ note ∈ text.tails, isPrintingNote note := by
  simp only [EndsInNote, List.mem_tails]
  constructor
  · rintro ⟨note, isNote, ends⟩
    exact ⟨note, ends, isPrintingNote_of_isNote isNote⟩
  · rintro ⟨note, ends, reads⟩
    exact ⟨note, isNote_of_isPrintingNote reads, ends⟩

instance (text : List Char) : Decidable (EndsInNote text) :=
  decidable_of_iff _ endsInNote_iff.symm

/-- Nothing is left out of a text that does not end in a note. -/
theorem withoutNote_eq_self {text : List Char} (plain : ¬ EndsInNote text) :
    withoutNote text = text := by
  induction text with
  | nil => rfl
  | cons c rest ih =>
    have noNote : ¬ isPrintingNote rest := fun reads =>
      plain ⟨rest, isNote_of_isPrintingNote reads, List.suffix_cons c rest⟩
    have plainRest : ¬ EndsInNote rest := fun ⟨note, isNote, ends⟩ =>
      plain ⟨note, isNote, ends.trans (List.suffix_cons c rest)⟩
    rw [withoutNote, if_neg noNote, ih plainRest]

/-! ## Counts -/

theorem isDecimalDigit_of_denotes {digits : List Char} {n : Nat} (denotes : Denotes digits n) :
    digits ≠ [] ∧ ∀ c ∈ digits, isDecimalDigit c := by
  have isDigit : ∀ digit < 10, isDecimalDigit (Nat.digitChar digit) := by
    decide
  obtain ⟨listed, rfl, small, some, -⟩ := denotes
  refine ⟨by simpa using some, fun c member => ?_⟩
  obtain ⟨digit, isListed, rfl⟩ := List.mem_map.mp member
  exact isDigit digit (small digit isListed)

/-- A line is split in one way. -/
theorem splitCount?_eq_some_iff {line digits name : List Char} :
    splitCount? line = some (digits, name) ↔
      ∃ gap, line = digits ++ (gap ++ name) ∧ (digits ≠ [] ∧ ∀ c ∈ digits, isDecimalDigit c) ∧
        (gap ≠ [] ∧ ∀ c ∈ gap, isBlank c) ∧ name ≠ [] ∧ ∀ c ∈ name.head?, isBlank c = false := by
  constructor
  · intro split
    obtain ⟨after, spaced, parts⟩ := Option.bind_eq_some_iff.mp split
    obtain ⟨filled, same⟩ := Option.ite_none_left_eq_some.mp parts
    obtain ⟨rfl, rfl⟩ := Prod.mk.inj (Option.some_inj.mp same)
    obtain ⟨gap, rest, some, blank, plain⟩ := afterBlanks?_eq_some_iff.mp spaced
    have parted : line.takeWhile isDecimalDigit ≠ [] ∧ after ≠ [] := by simpa using filled
    refine ⟨gap, ?_, ⟨parted.1, fun c => List.mem_takeWhile_imp⟩, ⟨some, blank⟩, parted.2, plain⟩
    rw [← rest, List.takeWhile_append_dropWhile]
  · rintro ⟨gap, rfl, ⟨counted, numeral⟩, ⟨some, blank⟩, named, plain⟩
    have name? : afterBlanks? (gap ++ name) = .some name :=
      afterBlanks?_eq_some_iff.mpr ⟨gap, rfl, some, blank, plain⟩
    obtain ⟨c, others, rfl⟩ := List.exists_cons_of_ne_nil some
    have stops : isDecimalDigit c = false := by
      rw [← Bool.not_eq_true]
      intro isDigit
      exact absurd (blank c List.mem_cons_self) (by simp [not_isBlank_of_isDecimalDigit isDigit])
    have none : (c :: others ++ name).takeWhile isDecimalDigit = [] := by simp [stops]
    have all : (c :: others ++ name).dropWhile isDecimalDigit = c :: others ++ name := by
      simp [stops]
    rw [splitCount?, List.takeWhile_append_of_pos numeral, List.dropWhile_append_of_pos numeral,
      none, all, name?]
    simp [counted, named]

theorem parse?_of_splitCount? {line digits name : List Char}
    (split : splitCount? line = some (digits, name)) :
    parse? line = ofParts? digits (withoutNote name) := by
  rw [parse?, split]
  rfl

/-- A numeral of the count, then blanks. -/
structure Counts (count : UInt32) (digits gap : List Char) : Prop where
  denotes : Denotes digits count.toNat
  positive : 1 ≤ count
  some : gap ≠ []
  blank : ∀ c ∈ gap, isBlank c

namespace Counts

variable {count : UInt32} {digits gap name : List Char}

theorem ofParts? (counts : Counts count digits gap) (some : trim name ≠ []) :
    ofParts? digits name = .some ⟨String.ofList (trim name), count⟩ := by
  have positive : 0 < count.toNat := UInt32.le_iff_toNat_le.mp counts.positive
  have small : count.toNat < UInt32.size := count.toNat_lt
  have filled : (!(trim name).isEmpty) = true := by simpa using some
  rw [DecklistLine.ofParts?, natural?_eq_some_iff.mpr counts.denotes, Option.bind_some,
    if_pos ⟨positive, small, filled⟩, UInt32.ofNat_toNat]

/-- What stands behind a count is the name, but for a note. -/
theorem parse? (counts : Counts count digits gap) {rest : List Char}
    (starts : ∀ c ∈ rest.head?, isBlank c = false) (same : withoutNote rest = name)
    (some : name ≠ []) (trimmed : Trimmed name) :
    parse? (digits ++ (gap ++ rest)) = .some ⟨String.ofList name, count⟩ := by
  have someRest : rest ≠ [] := by
    rintro rfl
    exact some same.symm
  have split := splitCount?_eq_some_iff.mpr ⟨gap, rfl, isDecimalDigit_of_denotes counts.denotes,
    ⟨counts.some, counts.blank⟩, someRest, starts⟩
  rw [parse?_of_splitCount? split, same, counts.ofParts? (by rwa [trim_eq_self trimmed]),
    trim_eq_self trimmed]

end Counts

/-! ## Written entries -/

/-- A count, a blank and a name. -/
def written (entry : DecklistLine) : List Char :=
  numeral entry.count.toNat ++ ' ' :: entry.name.toList

theorem written_ne_nil (entry : DecklistLine) : entry.written ≠ [] :=
  List.append_ne_nil_of_right_ne_nil _ (List.cons_ne_nil _ _)

/-- The entry is read back from its line. -/
structure IsReadable (entry : DecklistLine) : Prop where
  named : entry.name.toList ≠ []
  trimmed : Trimmed entry.name.toList
  noNote : ¬ EndsInNote entry.name.toList
  counted : 1 ≤ entry.count

theorem parse?_written {entry : DecklistLine} (readable : entry.IsReadable) :
    parse? entry.written = some entry := by
  have counts : Counts entry.count (numeral entry.count.toNat) [' '] :=
    ⟨denotes_numeral _, readable.counted, List.cons_ne_nil _ _, List.forall_mem_singleton.mpr rfl⟩
  have parsed := counts.parse? readable.trimmed.1 (withoutNote_eq_self readable.noNote)
    readable.named readable.trimmed
  rwa [String.ofList_toList] at parsed

theorem lineFeed_not_mem_written {entry : DecklistLine} (single : '\n' ∉ entry.name.toList) :
    '\n' ∉ entry.written := by
  rw [written, List.mem_append, List.mem_cons, not_or, not_or]
  refine ⟨fun member => ?_, by decide, single⟩
  have isDigit := (isDecimalDigit_of_denotes (denotes_numeral _)).2 _ member
  revert isDigit
  decide

/-! ## Entries and headers -/

theorem head?_lower_of_ofHeader? {line : List Char} {part : DecklistSection}
    (isHeader : DecklistSection.ofHeader? line = some part) :
    ∃ c ∈ ['c', 'd', 's'], (lower line).head? = some c := by
  rw [DecklistSection.ofHeader?] at isHeader
  split at isHeader
  case h_5 => cases isHeader
  all_goals
    rename_i same
    rw [← String.toList_inj, String.toList_ofList] at same
    rw [same]
    exact ⟨_, by decide, rfl⟩

/-- No header starts with a numeral. -/
theorem ofHeader?_of_denotes {digits : List Char} {n : Nat} (denotes : Denotes digits n)
    (rest : List Char) : DecklistSection.ofHeader? (digits ++ rest) = none := by
  have lowered : ∀ digit < 10, IsLowered (Nat.digitChar digit) := by
    decide +kernel
  have noLetter : ∀ digit < 10, Nat.digitChar digit ∉ ['c', 'd', 's'] := by
    decide
  obtain ⟨listed, rfl, small, some, -⟩ := denotes
  obtain ⟨digit, others, rfl⟩ := List.exists_cons_of_ne_nil some
  have isDigit := small digit List.mem_cons_self
  have opens : (lower ((digit :: others).map Nat.digitChar ++ rest)).head? =
      .some (Nat.digitChar digit) := by
    rw [List.map_cons, List.cons_append, lower,
      lowerAfter_cons_of_isLowered (lowered digit isDigit), List.head?_cons]
  refine Option.eq_none_iff_forall_ne_some.mpr fun part isHeader => ?_
  obtain ⟨c, isLetter, starts⟩ := head?_lower_of_ofHeader? isHeader
  obtain rfl := Option.some_inj.mp (opens.symm.trans starts)
  exact noLetter digit isDigit isLetter

theorem ofHeader?_written (entry : DecklistLine) :
    DecklistSection.ofHeader? entry.written = none :=
  ofHeader?_of_denotes (denotes_numeral _) _

theorem trimmed_written {entry : DecklistLine} (readable : entry.IsReadable) :
    Trimmed entry.written := by
  constructor
  · intro c first
    obtain ⟨some, digits⟩ := isDecimalDigit_of_denotes (denotes_numeral entry.count.toNat)
    rw [written, List.head?_append_of_ne_nil _ some] at first
    exact not_isBlank_of_isDecimalDigit (digits c (List.mem_of_mem_head? first))
  · have ends : entry.written.getLast? = entry.name.toList.getLast? := by
      rw [written, List.getLast?_append_of_ne_nil _ (List.cons_ne_nil _ _),
        List.getLast?_cons_of_ne_nil readable.named]
    rw [ends]
    exact readable.trimmed.2

end DecklistLine

end DeckBuilder
