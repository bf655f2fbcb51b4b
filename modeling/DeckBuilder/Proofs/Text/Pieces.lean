import DeckBuilder.Proofs.Lists
import DeckBuilder.Text.Blank
import Mathlib.Data.List.TakeWhile

/-! # Pieces and where they stand

A piece of a text stands in it between separating characters or the ends of the text. Splitting
lines gives back what was joined with line feeds, and trimming takes nothing off a text without
blanks at its ends. Thus splitting and trimming find just the lines that a text has.
-/

namespace DeckBuilder.Text

/-! ## Parts of a text -/

theorem afterOpening?_eq_some_iff {opening text rest : List Char} :
    afterOpening? opening text = some rest ↔ text = opening ++ rest := by
  induction opening generalizing text with
  | nil => simp [afterOpening?]
  | cons o opening ih =>
    cases text with
    | nil => simp [afterOpening?]
    | cons c text =>
      by_cases same : o = c
      · simp [afterOpening?, same, ih]
      · simp [afterOpening?, same, Ne.symm same]

theorem occursIn_iff_infix {needle text : List Char} : occursIn needle text ↔ needle <:+: text := by
  have opens_iff (text : List Char) : (afterOpening? needle text).isSome ↔ needle <+: text := by
    simp only [Option.isSome_iff_exists, afterOpening?_eq_some_iff]
    exact exists_congr fun rest => eq_comm
  induction text with
  | nil => simp [occursIn]
  | cons c rest ih =>
    rw [occursIn, Bool.or_eq_true, List.infix_cons_iff]
    exact or_congr (opens_iff _) ih

/-- The part stands in the text between separating characters or the ends of the text. -/
def Stands (separates : Char → Prop) (part text : List Char) : Prop :=
  ∃ before after, text = before ++ part ++ after ∧ (∀ c ∈ before.getLast?, separates c) ∧
    ∀ c ∈ after.head?, separates c

namespace Stands

variable {separates : Char → Prop} {part middle text : List Char}

theorem mono {other : Char → Prop} (weaker : ∀ c, separates c → other c)
    (stands : Stands separates part text) : Stands other part text := by
  obtain ⟨before, after, here, left, right⟩ := stands
  exact ⟨before, after, here, fun c last => weaker c (left c last),
    fun c first => weaker c (right c first)⟩

theorem trans (inner : Stands separates part middle) (outer : Stands separates middle text) :
    Stands separates part text := by
  obtain ⟨before, after, rfl, left, right⟩ := inner
  obtain ⟨front, back, rfl, leftmost, rightmost⟩ := outer
  refine ⟨front ++ before, after ++ back, by simp, ?_, ?_⟩
  · intro c last
    rw [List.getLast?_append, Option.mem_def, Option.or_eq_some_iff] at last
    obtain inside | ⟨-, outside⟩ := last
    · exact left c inside
    · exact leftmost c outside
  · intro c first
    rw [List.head?_append, Option.mem_def, Option.or_eq_some_iff] at first
    obtain inside | ⟨-, outside⟩ := first
    · exact right c inside
    · exact rightmost c outside

end Stands

/-! ## Splitting -/

theorem extendPiece_eq {c : Char} {pieces : List (List Char)} (some : pieces ≠ []) :
    extendPiece c pieces = pieces.modifyHead (c :: ·) := by
  cases pieces with
  | nil => exact absurd rfl some
  | cons piece rest => rfl

theorem splitWhere_eq_splitOnP (separates : Char → Bool) (text : List Char) :
    splitWhere separates text = text.splitOnP separates := by
  induction text with
  | nil => rfl
  | cons c rest ih =>
    rw [splitWhere, List.splitOnP_cons_eq_if_modifyHead, ih,
      extendPiece_eq (List.splitOnP_ne_nil _ _)]

theorem not_separates_of_mem_splitWhere {separates : Char → Bool} {text piece : List Char}
    (member : piece ∈ splitWhere separates text) : ∀ c ∈ piece, separates c = false := by
  induction text generalizing piece with
  | nil => simp [List.mem_singleton.mp member]
  | cons d rest ih =>
    rw [splitWhere] at member
    split at member
    · rcases List.mem_cons.mp member with rfl | later
      · exact nofun
      · exact ih later
    · rename_i plain
      have some : splitWhere separates rest ≠ [] :=
        splitWhere_eq_splitOnP separates rest ▸ List.splitOnP_ne_nil _ _
      obtain ⟨first, others, pieces⟩ := List.exists_cons_of_ne_nil some
      rw [pieces] at member ih
      rcases List.mem_cons.mp member with rfl | later
      · exact List.forall_mem_cons.mpr ⟨by simpa using plain, ih List.mem_cons_self⟩
      · exact ih (.tail _ later)

/-- The pieces of a text: the first one stands at its start, the others after a separating
character. -/
structure PiecesOf (separates : Char → Prop) (pieces : List (List Char)) (text : List Char) :
    Prop where
  first : ∃ piece after, pieces.head? = some piece ∧ text = piece ++ after ∧
    ∀ c ∈ after.head?, separates c
  later : ∀ piece ∈ pieces.tail, ∃ before after, text = before ++ piece ++ after ∧
    (∃ c ∈ before.getLast?, separates c) ∧ ∀ c ∈ after.head?, separates c

namespace PiecesOf

variable {separates : Char → Prop} {pieces : List (List Char)} {text : List Char}

theorem single (text : List Char) : PiecesOf separates [text] text where
  first := ⟨text, [], rfl, by simp, by simp⟩
  later := by simp

theorem extend (cut : PiecesOf separates pieces text) (c : Char) :
    PiecesOf separates (extendPiece c pieces) (c :: text) := by
  obtain ⟨⟨piece, after, here, rfl, right⟩, later⟩ := cut
  obtain ⟨others, rfl⟩ := List.head?_eq_some_iff.mp here
  refine ⟨⟨c :: piece, after, rfl, rfl, right⟩, fun other member => ?_⟩
  obtain ⟨before, behind, place, left, right⟩ := later other member
  refine ⟨c :: before, behind, by simp [place], ?_, right⟩
  obtain ⟨d, last, separated⟩ := left
  exact ⟨d, by simp [List.getLast?_cons, Option.mem_def.mp last], separated⟩

/-- A new piece starts before the text when separating characters come first. -/
theorem separate (cut : PiecesOf separates pieces text) {mark : List Char} (marked : mark ≠ [])
    (separating : ∀ c ∈ mark, separates c) : PiecesOf separates ([] :: pieces) (mark ++ text) := by
  obtain ⟨⟨piece, after, here, rfl, right⟩, later⟩ := cut
  obtain ⟨others, rfl⟩ := List.head?_eq_some_iff.mp here
  refine ⟨⟨[], mark ++ (piece ++ after), rfl, rfl, fun c first => ?_⟩, fun other member => ?_⟩
  · rw [List.head?_append_of_ne_nil _ marked] at first
    exact separating c (List.mem_of_mem_head? first)
  · rcases List.mem_cons.mp member with rfl | isLater
    · refine ⟨mark, after, by simp, ?_, right⟩
      exact ⟨mark.getLast marked, List.getLast?_eq_some_getLast marked,
        separating _ (List.getLast_mem marked)⟩
    · obtain ⟨before, behind, place, ⟨d, last, separated⟩, right⟩ := later other isLater
      refine ⟨mark ++ before, behind, by simp [place], ⟨d, ?_, separated⟩, right⟩
      simp [List.getLast?_append, Option.mem_def.mp last]

theorem stands (cut : PiecesOf separates pieces text) {piece : List Char}
    (member : piece ∈ pieces) : Stands separates piece text := by
  obtain ⟨⟨first, after, here, place, right⟩, later⟩ := cut
  obtain ⟨others, rfl⟩ := List.head?_eq_some_iff.mp here
  rcases List.mem_cons.mp member with rfl | isLater
  · exact ⟨[], after, place, by simp, right⟩
  · obtain ⟨before, behind, place, ⟨d, last, separated⟩, right⟩ := later piece isLater
    refine ⟨before, behind, place, fun c isLast => ?_, right⟩
    rwa [← Option.mem_unique last isLast]

end PiecesOf

theorem piecesOf_splitWhere (separates : Char → Bool) (text : List Char) :
    PiecesOf (separates ·) (splitWhere separates text) text := by
  induction text with
  | nil => exact .single []
  | cons c rest ih =>
    rw [splitWhere]
    split
    · rename_i separating
      exact ih.separate (List.cons_ne_nil c []) (by simpa using separating)
    · exact ih.extend c

theorem piecesOf_sides (text : List Char) : PiecesOf (· = '/') (sides text) text := by
  induction text using sides.induct with
  | case1 rest ih =>
    rw [sides]
    exact ih.separate (List.cons_ne_nil '/' ['/']) (by simp)
  | case2 c rest single ih =>
    rw [sides]
    · exact ih.extend c
    · exact single
  | case3 => exact .single []

theorem stands_of_mem_words {word text : List Char} (member : word ∈ words text) :
    Stands (isBlank ·) word text :=
  (piecesOf_splitWhere isBlank text).stands (List.mem_filter.mp member).1

/-! ## Lines -/

/-- Lines that end with a line feed are split again, with nothing after the last line feed. -/
theorem splitWhere_flatMap_lineFeed {lines : List (List Char)}
    (single : ∀ line ∈ lines, '\n' ∉ line) :
    splitWhere (· = '\n') (lines.flatMap (· ++ ['\n'])) = lines ++ [[]] := by
  rw [splitWhere_eq_splitOnP]
  induction lines with
  | nil => rfl
  | cons line rest ih =>
    have unbroken : ∀ c ∈ line, decide (c = '\n') = false := by
      intro c member
      refine decide_eq_false fun isFeed => ?_
      exact single line List.mem_cons_self (isFeed ▸ member)
    rw [List.flatMap_cons, List.append_assoc, List.singleton_append,
      List.splitOnP_append_cons_of_forall_mem unbroken _ rfl,
      ih fun other member => single other (.tail _ member)]
    rfl

/-! ## Trimming -/

/-- No blank stands at either end. -/
def Trimmed (text : List Char) : Prop :=
  (∀ c ∈ text.head?, isBlank c = false) ∧ ∀ c ∈ text.getLast?, isBlank c = false

theorem trimStart_eq_self {text : List Char} (plain : ∀ c ∈ text.head?, isBlank c = false) :
    trimStart text = text := by
  cases text with
  | nil => rfl
  | cons c rest => rw [trimStart, List.dropWhile_cons, plain c rfl, if_neg Bool.false_ne_true]

theorem trimEnd_eq_self {text : List Char} (plain : ∀ c ∈ text.getLast?, isBlank c = false) :
    trimEnd text = text := by
  have backwards : ∀ c ∈ text.reverse.head?, isBlank c = false := by
    rwa [List.head?_reverse]
  rw [trimEnd]
  exact (congrArg List.reverse (trimStart_eq_self backwards)).trans (List.reverse_reverse text)

theorem plain_getLast?_trimEnd (text : List Char) :
    ∀ c ∈ (trimEnd text).getLast?, isBlank c = false := by
  intro c last
  rw [trimEnd, List.getLast?_reverse] at last
  exact Lists.of_mem_head?_dropWhile last

theorem trim_eq_self {text : List Char} (trimmed : Trimmed text) : trim text = text := by
  rw [trim, trimStart_eq_self trimmed.1, trimEnd_eq_self trimmed.2]

theorem trimEnd_isPrefix (text : List Char) : trimEnd text <+: text := by
  rw [← List.reverse_suffix, trimEnd, List.reverse_reverse]
  exact List.dropWhile_suffix isBlank

theorem trimmed_trim (text : List Char) : Trimmed (trim text) := by
  refine ⟨fun c first => ?_, plain_getLast?_trimEnd _⟩
  obtain ⟨rest, whole⟩ : trim text <+: trimStart text := trimEnd_isPrefix _
  apply Lists.of_mem_head?_dropWhile
  rw [← trimStart, ← whole, List.head?_append, Option.mem_def.mp first]
  rfl

theorem trimmed_iff {text : List Char} : Trimmed text ↔ trim text = text :=
  ⟨trim_eq_self, fun same => same ▸ trimmed_trim text⟩

instance : DecidablePred Trimmed :=
  fun _ => decidable_of_iff _ trimmed_iff.symm

/-- Trimming takes blanks off both ends. -/
theorem exists_trim (text : List Char) :
    ∃ before after, text = before ++ trim text ++ after ∧ (∀ c ∈ before, isBlank c) ∧
      ∀ c ∈ after, isBlank c := by
  refine ⟨text.takeWhile isBlank, ((trimStart text).reverse.takeWhile isBlank).reverse, ?_,
    fun _ => List.mem_takeWhile_imp, fun c member => ?_⟩
  · rw [trim, trimEnd, List.append_assoc, ← List.reverse_append, List.takeWhile_append_dropWhile,
      List.reverse_reverse]
    exact List.takeWhile_append_dropWhile.symm
  · exact List.mem_takeWhile_imp (List.mem_reverse.mp member)

theorem trim_eq_nil_iff {text : List Char} : trim text = [] ↔ ∀ c ∈ text, isBlank c := by
  constructor
  · intro none c member
    obtain ⟨before, after, whole, left, right⟩ := exists_trim text
    rw [none, List.append_nil] at whole
    rw [whole, List.mem_append] at member
    exact member.elim (left c) (right c)
  · intro blank
    rw [trim, trimStart, List.dropWhile_eq_nil_iff.mpr blank]
    rfl

theorem trim_ne_nil {text : List Char} (some : text ≠ [])
    (plain : ∀ c ∈ text.head?, isBlank c = false) : trim text ≠ [] := by
  obtain ⟨c, rest, rfl⟩ := List.exists_cons_of_ne_nil some
  intro none
  have blank := trim_eq_nil_iff.mp none c List.mem_cons_self
  rw [plain c rfl] at blank
  cases blank

/-- A text that does not end in blanks is blanks and something that starts with none. -/
theorem exists_trimStart {text : List Char} (some : text ≠ [])
    (plain : ∀ c ∈ text.getLast?, isBlank c = false) :
    ∃ gap rest, text = gap ++ rest ∧ (∀ c ∈ gap, isBlank c) ∧ rest ≠ [] ∧
      ∀ c ∈ rest.head?, isBlank c = false := by
  refine ⟨text.takeWhile isBlank, trimStart text, List.takeWhile_append_dropWhile.symm,
    fun _ => List.mem_takeWhile_imp, fun none => ?_, fun c => Lists.of_mem_head?_dropWhile⟩
  have blank := List.dropWhile_eq_nil_iff.mp none _ (List.getLast_mem some)
  rw [plain _ (List.getLast?_eq_some_getLast some)] at blank
  cases blank

theorem trim_isInfix (text : List Char) : trim text <:+: text := by
  obtain ⟨before, after, whole, -, -⟩ := exists_trim text
  exact ⟨before, after, whole.symm⟩

theorem trimStart_append {gap : List Char} (blank : ∀ c ∈ gap, isBlank c) (text : List Char) :
    trimStart (gap ++ text) = trimStart text :=
  List.dropWhile_append_of_pos blank

theorem trimEnd_append {gap : List Char} (blank : ∀ c ∈ gap, isBlank c) (text : List Char) :
    trimEnd (text ++ gap) = trimEnd text := by
  rw [trimEnd, List.reverse_append, List.dropWhile_append_of_pos (by simpa using blank), trimEnd]

/-- Nothing before the last character that is not blank is taken off. -/
theorem trimEnd_append_of_plain {text : List Char} (plain : ∀ c ∈ text.getLast?, isBlank c = false)
    (rest : List Char) : trimEnd (text ++ rest) = text ++ trimEnd rest := by
  have whole := trimEnd_eq_self plain
  rw [trimEnd] at whole
  rw [trimEnd, List.reverse_append, List.dropWhile_append, trimEnd]
  split
  · rename_i blank
    rw [List.isEmpty_iff.mp blank, whole, List.reverse_nil, List.append_nil]
  · rw [List.reverse_append, List.reverse_reverse]

/-- It does not matter which end is trimmed first. -/
theorem trimStart_trimEnd (text : List Char) : trimStart (trimEnd text) = trim text := by
  have blank : ∀ c ∈ text.takeWhile isBlank, isBlank c := fun _ => List.mem_takeWhile_imp
  have split : text.takeWhile isBlank ++ trimStart text = text := List.takeWhile_append_dropWhile
  rw [trim]
  cases core : trimStart text with
  | nil =>
    rw [core, List.append_nil] at split
    have none : trimEnd text = [] := split ▸ trimEnd_append blank []
    rw [none]
    rfl
  | cons c rest =>
    rw [core, List.append_cons] at split
    have first : c ∈ (text.dropWhile isBlank).head? := by
      rw [← trimStart, core]
      rfl
    have plain : ∀ d ∈ [c].getLast?, isBlank d = false := by
      simpa using Lists.of_mem_head?_dropWhile first
    calc trimStart (trimEnd text)
      _ = trimStart (text.takeWhile isBlank ++ (c :: trimEnd rest)) := by
        conv_lhs => rw [← split]
        rw [trimEnd_append_of_plain (by simpa using plain), List.append_assoc]
        rfl
      _ = c :: trimEnd rest := by
        rw [trimStart_append blank, trimStart_eq_self (by simpa using plain)]
      _ = trimEnd (c :: rest) := (trimEnd_append_of_plain plain rest).symm

theorem trim_append_left {gap : List Char} (blank : ∀ c ∈ gap, isBlank c) (text : List Char) :
    trim (gap ++ text) = trim text := by
  rw [trim, trimStart_append blank, trim]

theorem trim_append_right {gap : List Char} (blank : ∀ c ∈ gap, isBlank c) (text : List Char) :
    trim (text ++ gap) = trim text := by
  rw [← trimStart_trimEnd, trimEnd_append blank, trimStart_trimEnd]

/-- Blanks around a trimmed text are taken off. -/
theorem trim_pad {before text after : List Char} (trimmed : Trimmed text)
    (left : ∀ c ∈ before, isBlank c) (right : ∀ c ∈ after, isBlank c) :
    trim (before ++ text ++ after) = text := by
  rw [trim_append_right right, trim_append_left left, trim_eq_self trimmed]

/-- What follows a trimmed text is trimmed at its end. -/
theorem trim_append {text : List Char} (trimmed : Trimmed text) (some : text ≠ [])
    (rest : List Char) : trim (text ++ rest) = text ++ trimEnd rest := by
  have plain : ∀ c ∈ (text ++ rest).head?, isBlank c = false := by
    rw [List.head?_append_of_ne_nil _ some]
    exact trimmed.1
  rw [trim, trimStart_eq_self plain, trimEnd_append_of_plain trimmed.2]

/-! ## The lines of a text -/

/-- The trimmed lines among the pieces of a text, in their order. Blank pieces are no lines. -/
inductive LinesAmong : List (List Char) → List (List Char) → Prop where
  | nil : LinesAmong [] []
  | blank {piece : List Char} {pieces lines : List (List Char)} (blank : ∀ c ∈ piece, isBlank c)
      (rest : LinesAmong pieces lines) : LinesAmong (piece :: pieces) lines
  | line {before line after : List Char} {pieces lines : List (List Char)}
      (left : ∀ c ∈ before, isBlank c) (right : ∀ c ∈ after, isBlank c) (some : line ≠ [])
      (trimmed : Trimmed line) (rest : LinesAmong pieces lines) :
      LinesAmong ((before ++ line ++ after) :: pieces) (line :: lines)

/-- The trimmed lines of a text that are not blank. Line feeds stand between lines, and nowhere
else. -/
def LinesOf (lines : List (List Char)) (text : List Char) : Prop :=
  ∃ pieces, pieces ≠ [] ∧ (∀ piece ∈ pieces, '\n' ∉ piece) ∧ ['\n'].intercalate pieces = text ∧
    LinesAmong pieces lines

theorem linesAmong_iff {pieces lines : List (List Char)} :
    LinesAmong pieces lines ↔ lines = (pieces.map trim).filter fun line => !line.isEmpty := by
  constructor
  · intro among
    induction among with
    | nil => rfl
    | blank blank _ ih => simpa [trim_eq_nil_iff.mpr blank] using ih
    | line left right some trimmed _ ih =>
      rw [List.map_cons, trim_pad trimmed left right, List.filter_cons_of_pos (by simpa using some),
        ← ih]
  · rintro rfl
    induction pieces with
    | nil => exact .nil
    | cons piece rest ih =>
      by_cases none : trim piece = []
      · simpa [none] using ih.blank (trim_eq_nil_iff.mp none)
      · obtain ⟨before, after, whole, left, right⟩ := exists_trim piece
        have among := ih.line left right none (trimmed_trim piece)
        rw [← whole] at among
        simpa [none] using among

/-- Splitting at line feeds is the one way of undoing a join with line feeds. -/
theorem splitWhere_lineFeed_eq_iff {text : List Char} {pieces : List (List Char)} :
    splitWhere (· = '\n') text = pieces ↔
      pieces ≠ [] ∧ (∀ piece ∈ pieces, '\n' ∉ piece) ∧ ['\n'].intercalate pieces = text := by
  have same : splitWhere (· = '\n') text = text.splitOn '\n' := splitWhere_eq_splitOnP _ _
  rw [same]
  constructor
  · rintro rfl
    refine ⟨List.splitOnP_ne_nil _ _, fun piece member inside => ?_, List.intercalate_splitOn _⟩
    rw [← same] at member
    simpa using not_separates_of_mem_splitWhere member _ inside
  · rintro ⟨some, single, rfl⟩
    exact List.splitOn_intercalate _ single some

/-- A text has just one list of lines. -/
theorem linesOf_iff {lines : List (List Char)} {text : List Char} :
    LinesOf lines text ↔
      lines = ((splitWhere (· = '\n') text).map trim).filter fun line => !line.isEmpty := by
  rw [← linesAmong_iff]
  constructor
  · rintro ⟨pieces, some, single, joined, among⟩
    rwa [splitWhere_lineFeed_eq_iff.mpr ⟨some, single, joined⟩]
  · intro among
    obtain ⟨some, single, joined⟩ := splitWhere_lineFeed_eq_iff.mp (Eq.refl (splitWhere _ text))
    exact ⟨_, some, single, joined, among⟩

end DeckBuilder.Text
