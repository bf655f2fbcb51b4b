import DeckBuilder.Proofs.Text.Pieces
import DeckBuilder.Query.Basic

/-! # Lower-casing

A part of a text that stands between characters without case is lower-cased on its own, since no
capital sigma in it looks beyond them. What has been lower-cased once stays as it is, blanks are
kept, and without a capital sigma every character is lower-cased on its own.
-/

namespace DeckBuilder.Text

/-! ## Parts that are lower-cased on their own -/

/-- A character beyond which a capital sigma does not look: it is neither cased nor ignorable for
case. -/
def EndsWord (c : Char) : Prop :=
  isCased c = false ∧ isCaseIgnorable c = false

instance (c : Char) : Decidable (EndsWord c) :=
  inferInstanceAs (Decidable (_ ∧ _))

/-- Inclusive ranges of the blanks. -/
def blankRanges : List (Nat × Nat) :=
  [(9, 13), (0x20, 0x20), (0x85, 0x85), (0xA0, 0xA0), (0x1680, 0x1680), (0x2000, 0x200A),
    (0x2028, 0x2029), (0x202F, 0x202F), (0x205F, 0x205F), (0x3000, 0x3000)]

theorem exists_blankRange {c : Char} (blank : isBlank c) :
    ∃ range ∈ blankRanges, range.1 ≤ c.toNat ∧ c.toNat ≤ range.2 := by
  simp only [isBlank, Bool.or_eq_true, Bool.and_eq_true, decide_eq_true_eq, beq_iff_eq] at blank
  simp only [blankRanges, List.exists_mem_cons_iff, List.not_mem_nil, false_and, exists_false]
  omega

theorem any_inside_of_isBlank {c : Char} (blank : isBlank c) {ranges : List (Nat × Nat)}
    (apart : ∀ range ∈ blankRanges, ∀ other ∈ ranges, range.2 < other.1 ∨ other.2 < range.1) :
    (ranges.any fun other => other.1 ≤ c.toNat && c.toNat ≤ other.2) = false := by
  obtain ⟨range, isRange, low, high⟩ := exists_blankRange blank
  rw [List.any_eq_false]
  intro other member
  have outside := apart range isRange other member
  simp only [Bool.and_eq_true, decide_eq_true_eq]
  omega

theorem endsWord_of_isBlank {c : Char} (blank : isBlank c) : EndsWord c := by
  have uncased : ∀ range ∈ blankRanges, ∀ other ∈ casedRanges,
      range.2 < other.1 ∨ other.2 < range.1 := by
    decide +kernel
  have visible : ∀ range ∈ blankRanges, ∀ other ∈ caseIgnorableRanges,
      range.2 < other.1 ∨ other.2 < range.1 := by
    decide +kernel
  refine ⟨?_, any_inside_of_isBlank blank visible⟩
  rw [isCased]
  split
  · have controls : ∀ n < 33, (Char.ofNat n).isAlpha = false := by
      decide
    obtain ⟨range, isRange, low, high⟩ := exists_blankRange blank
    have small : ∀ range ∈ blankRanges, range.1 < 128 → range.2 < 33 := by
      decide
    rw [← Char.ofNat_toNat c]
    exact controls c.toNat (by have := small range isRange (by omega); omega)
  · exact any_inside_of_isBlank blank uncased

/-- Where the text ends or a word ends, nothing cased starts. -/
theorem startsCased_append {text after : List Char} (ended : ∀ c ∈ after.head?, EndsWord c) :
    startsCased (text ++ after) = startsCased text := by
  have plain : startsCased after = false := by
    cases after with
    | nil => rfl
    | cons c rest =>
      obtain ⟨uncased, visible⟩ := ended c rfl
      rw [startsCased, List.dropWhile_cons_of_neg (by simp [visible])]
      exact uncased
  rw [startsCased, startsCased, List.dropWhile_append]
  split
  · rename_i ignored
    rw [List.isEmpty_iff.mp ignored]
    exact plain
  · rename_i seen
    rw [List.head?_append_of_ne_nil _ (by simpa using seen)]

theorem lowerAfter_append (text : List Char) {after : List Char}
    (ended : ∀ c ∈ after.head?, EndsWord c) (afterCased : Bool) :
    ∃ cased, lowerAfter afterCased (text ++ after) =
      lowerAfter afterCased text ++ lowerAfter cased after := by
  induction text generalizing afterCased with
  | nil => exact ⟨afterCased, rfl⟩
  | cons c rest ih =>
    obtain ⟨cased, split⟩ := ih (if isCaseIgnorable c then afterCased else isCased c)
    refine ⟨cased, ?_⟩
    rw [List.cons_append, lowerAfter, lowerAfter, startsCased_append ended, split,
      List.append_assoc]

/-- After the end of a word it does not matter what came before. -/
theorem lowerAfter_cons_of_endsWord {c : Char} (ended : EndsWord c) (afterCased : Bool)
    (rest : List Char) : lowerAfter afterCased (c :: rest) = lowerChar c ++ lower rest := by
  obtain ⟨uncased, visible⟩ := ended
  have noSigma : c ≠ 'Σ' := by
    rintro rfl
    revert uncased
    decide +kernel
  rw [lowerAfter, if_neg noSigma, visible, if_neg Bool.false_ne_true, uncased, lower]

theorem exists_lower_append (part : List Char) {after : List Char}
    (ended : ∀ c ∈ after.head?, EndsWord c) :
    ∃ back, lower (part ++ after) = lower part ++ back := by
  obtain ⟨cased, split⟩ := lowerAfter_append part ended false
  exact ⟨_, split⟩

theorem exists_append_lower {before : List Char} (ended : ∀ c ∈ before.getLast?, EndsWord c)
    (rest : List Char) : ∃ front, lower (before ++ rest) = front ++ lower rest := by
  rcases List.eq_nil_or_concat before with rfl | ⟨init, last, rfl⟩
  · exact ⟨[], rfl⟩
  · have lastEnds : EndsWord last := ended last (by simp)
    have next : ∀ c ∈ (last :: rest).head?, EndsWord c := by
      simpa using lastEnds
    obtain ⟨cased, split⟩ := lowerAfter_append init next false
    refine ⟨lower init ++ lowerChar last, ?_⟩
    rw [List.concat_append, List.append_assoc, ← lowerAfter_cons_of_endsWord lastEnds cased rest]
    exact split

/-- **A part between the ends of words is lower-cased as if it stood alone.** -/
theorem lower_infix {part text : List Char} (stands : Stands EndsWord part text) :
    lower part <:+: lower text := by
  obtain ⟨before, after, rfl, left, right⟩ := stands
  obtain ⟨back, suffix⟩ := exists_lower_append part right
  obtain ⟨front, whole⟩ := exists_append_lower left (part ++ after)
  rw [List.append_assoc, whole, suffix]
  exact ⟨front, back, by simp⟩

/-! ## Lower-casing twice -/

/-- The number with a binary digit one at each of the places and no other. -/
def bits (places : List Nat) : Nat :=
  places.foldr (fun place rest => 1 <<< place ||| rest) 0

theorem testBit_bits {places : List Nat} {n : Nat} : (bits places).testBit n ↔ n ∈ places := by
  induction places with
  | nil => simp [bits]
  | cons place rest ih =>
    rw [bits, List.foldr_cons, Nat.testBit_or, Nat.one_shiftLeft, Nat.testBit_two_pow,
      Bool.or_eq_true, decide_eq_true_eq, List.mem_cons, eq_comm]
    exact or_congr_right ih

/-- Lists with no number in common, which is told by their bits. -/
theorem not_mem_of_bits {first second : List Nat} (apart : bits first &&& bits second = 0) {n : Nat}
    (member : n ∈ first) : n ∉ second := by
  intro other
  have both : (bits first &&& bits second).testBit n := by
    rw [Nat.testBit_and, testBit_bits.mpr member, testBit_bits.mpr other, Bool.and_self]
  rw [apart, Nat.zero_testBit] at both
  exact Bool.false_ne_true both

namespace CaseRun

/-- The code points that a run lists. -/
def listed (run : CaseRun) : List Nat :=
  List.range' run.first ((run.last - run.first) / run.step + 1) run.step

/-- The code point of the lower-case form of a character that the run lists. -/
def image (run : CaseRun) (n : Nat) : Nat :=
  (n + run.shift).toNat

theorem mem_listed {run : CaseRun} {n : Nat} (lists : run.lists n) : n ∈ run.listed := by
  simp only [CaseRun.lists, Bool.and_eq_true, decide_eq_true_eq, beq_iff_eq] at lists
  obtain ⟨⟨low, high⟩, step⟩ := lists
  refine List.mem_range'.mpr ⟨(n - run.first) / run.step, ?_, ?_⟩
  · exact Nat.lt_succ_of_le (Nat.div_le_div_right (Nat.sub_le_sub_right high run.first))
  · rw [Nat.mul_div_cancel' (Nat.dvd_of_mod_eq_zero step), Nat.add_sub_cancel' low]

end CaseRun

/-- The runs of the characters with one other character as their lower-case form. -/
def upperRuns : List CaseRun :=
  ⟨0x41, 0x5A, 1, 32⟩ :: lowerRuns

/-- The code points of the characters that are not their own lower-case form. -/
def capitals : List Nat :=
  0x130 :: upperRuns.flatMap (·.listed)

/-- The code points of the lower-case forms. -/
def lowerForms : List Nat :=
  upperRuns.flatMap fun run => run.listed.map run.image

theorem lowerForms_apart : bits lowerForms &&& bits capitals = 0 := by
  decide +kernel

theorem toNat_ofNat_lowerForms : ∀ n ∈ lowerForms, (Char.ofNat n).toNat = n := by
  decide +kernel

/-- The character is its own lower-case form. -/
def IsLowered (c : Char) : Prop :=
  c ≠ 'İ' ∧ ∀ run ∈ upperRuns, ¬ run.lists c.toNat

instance (c : Char) : Decidable (IsLowered c) :=
  inferInstanceAs (Decidable (_ ∧ _))

theorem simpleLower_ascii {c : Char} (ascii : c.toNat < 128) :
    simpleLower c =
      if 0x41 ≤ c.toNat ∧ c.toNat ≤ 0x5A then Char.ofNat (c.toNat + 32) else c := by
  have every : ∀ n < 128, (Char.ofNat n).toLower =
      if 0x41 ≤ n ∧ n ≤ 0x5A then Char.ofNat (n + 32) else Char.ofNat n := by
    decide
  have here := every c.toNat ascii
  rw [Char.ofNat_toNat] at here
  rw [simpleLower, if_pos ascii, here]

/-- A character is its own lower-case form unless a run lists it. -/
theorem simpleLower_cases (c : Char) :
    (∃ run ∈ upperRuns, run.lists c.toNat ∧ simpleLower c = Char.ofNat (run.image c.toNat)) ∨
      (∀ run ∈ upperRuns, ¬ run.lists c.toNat) ∧ simpleLower c = c := by
  by_cases ascii : c.toNat < 128
  · rw [simpleLower_ascii ascii]
    have beyond : ∀ run ∈ lowerRuns, 128 ≤ run.first := by
      decide +kernel
    by_cases capital : 0x41 ≤ c.toNat ∧ c.toNat ≤ 0x5A
    · refine .inl ⟨_, List.mem_cons_self, by simp [CaseRun.lists, capital, Nat.mod_one], ?_⟩
      rw [if_pos capital]
      rfl
    · refine .inr ⟨fun run member => ?_, if_neg capital⟩
      simp only [CaseRun.lists, Bool.and_eq_true, decide_eq_true_eq]
      rcases List.mem_cons.mp member with rfl | inTable
      · exact fun lists => capital lists.1
      · have := beyond run inTable
        omega
  · rw [simpleLower, if_neg ascii]
    cases found : lowerRuns.find? fun run => run.lists c.toNat with
    | some run =>
      have here := List.find?_some found
      exact .inl ⟨run, List.mem_cons_of_mem _ (List.mem_of_find?_eq_some found),
        here, rfl⟩
    | none =>
      refine .inr ⟨fun run member => ?_, rfl⟩
      rcases List.mem_cons.mp member with rfl | inTable
      · simp only [CaseRun.lists, Bool.and_eq_true, decide_eq_true_eq]
        omega
      · exact List.find?_eq_none.mp found run inTable

theorem isLowered_of_mem_lowerForms {n : Nat} (member : n ∈ lowerForms) :
    IsLowered (Char.ofNat n) := by
  have same := toNat_ofNat_lowerForms n member
  have small := not_mem_of_bits lowerForms_apart member
  rw [capitals, List.mem_cons, not_or, List.mem_flatMap] at small
  refine ⟨fun isDotted => small.1 ?_, fun run isRun lists => small.2 ⟨run, isRun, ?_⟩⟩
  · rw [← same, isDotted]
    rfl
  · rw [same] at lists
    exact CaseRun.mem_listed lists

theorem isLowered_simpleLower {c : Char} (plain : c ≠ 'İ') : IsLowered (simpleLower c) := by
  obtain ⟨run, isRun, lists, same⟩ | ⟨unlisted, same⟩ := simpleLower_cases c
  · rw [same]
    apply isLowered_of_mem_lowerForms
    exact List.mem_flatMap.mpr ⟨run, isRun, List.mem_map_of_mem (CaseRun.mem_listed lists)⟩
  · rw [same]
    exact ⟨plain, unlisted⟩

theorem isLowered_of_mem_lowerChar {c lowered : Char} (member : lowered ∈ lowerChar c) :
    IsLowered lowered := by
  have dotted : IsLowered 'i' ∧ IsLowered '\u0307' := by
    decide +kernel
  rw [lowerChar] at member
  split at member
  · rw [List.mem_cons, List.mem_singleton] at member
    obtain rfl | rfl := member
    · exact dotted.1
    · exact dotted.2
  · rename_i plain
    rw [List.mem_singleton.mp member]
    exact isLowered_simpleLower plain

theorem lowerChar_of_isLowered {c : Char} (lowered : IsLowered c) : lowerChar c = [c] := by
  obtain ⟨plain, unlisted⟩ := lowered
  rw [lowerChar, if_neg plain]
  obtain ⟨run, isRun, lists, -⟩ | ⟨-, same⟩ := simpleLower_cases c
  · exact absurd lists (unlisted run isRun)
  · rw [same]

theorem isLowered_of_mem_lowerAfter {text : List Char} {afterCased : Bool} {lowered : Char}
    (member : lowered ∈ lowerAfter afterCased text) : IsLowered lowered := by
  have sigmas : IsLowered 'σ' ∧ IsLowered 'ς' := by
    decide +kernel
  induction text generalizing afterCased with
  | nil => cases member
  | cons c rest ih =>
    rw [lowerAfter, List.mem_append] at member
    obtain here | later := member
    · split at here
      · rw [List.mem_singleton.mp here]
        split
        · exact sigmas.2
        · exact sigmas.1
      · exact isLowered_of_mem_lowerChar here
    · exact ih later

theorem ne_sigma_of_isLowered {c : Char} (lowered : IsLowered c) : c ≠ 'Σ' := by
  have capital : ¬ IsLowered 'Σ' := by
    decide +kernel
  rintro rfl
  exact capital lowered

theorem lowerAfter_cons_of_isLowered {c : Char} (lowered : IsLowered c) (afterCased : Bool)
    (rest : List Char) :
    lowerAfter afterCased (c :: rest) =
      c :: lowerAfter (if isCaseIgnorable c then afterCased else isCased c) rest := by
  rw [lowerAfter, if_neg (ne_sigma_of_isLowered lowered), lowerChar_of_isLowered lowered]
  rfl

theorem lowerAfter_eq_self {text : List Char} (lowered : ∀ c ∈ text, IsLowered c)
    (afterCased : Bool) : lowerAfter afterCased text = text := by
  induction text generalizing afterCased with
  | nil => rfl
  | cons c rest ih =>
    obtain ⟨here, later⟩ := List.forall_mem_cons.mp lowered
    rw [lowerAfter_cons_of_isLowered here, ih later]

/-- **A text that has been lower-cased is its own lower-case form.** -/
theorem lower_lower (text : List Char) : lower (lower text) = lower text :=
  lowerAfter_eq_self (fun _ member => isLowered_of_mem_lowerAfter member) false

/-! ## Lower-casing and blanks -/

theorem isLowered_of_isBlank {c : Char} (blank : isBlank c) : IsLowered c := by
  have apart : ∀ range ∈ blankRanges, ∀ run ∈ upperRuns,
      range.2 < run.first ∨ run.last < range.1 := by
    decide +kernel
  refine ⟨?_, fun run isRun lists => ?_⟩
  · rintro rfl
    revert blank
    decide
  · obtain ⟨range, isRange, low, high⟩ := exists_blankRange blank
    have outside := apart range isRange run isRun
    simp only [CaseRun.lists, Bool.and_eq_true, decide_eq_true_eq] at lists
    omega

theorem not_isBlank_of_lists {run : CaseRun} (isRun : run ∈ upperRuns) {n : Nat}
    (lists : run.lists n) : isBlank (Char.ofNat (run.image n)) = false := by
  have apart : ∀ range ∈ blankRanges, ∀ run ∈ upperRuns,
      range.2 < run.first + run.shift ∨ run.last + run.shift < range.1 := by
    decide +kernel
  have positive : ∀ range ∈ blankRanges, 0 < range.1 := by
    decide
  have code : (Char.ofNat (run.image n)).toNat = run.image n :=
    toNat_ofNat_lowerForms _
      (List.mem_flatMap.mpr ⟨run, isRun, List.mem_map_of_mem (CaseRun.mem_listed lists)⟩)
  rw [← Bool.not_eq_true]
  intro blank
  obtain ⟨range, isRange, low, high⟩ := exists_blankRange blank
  have outside := apart range isRange run isRun
  have nonzero := positive range isRange
  simp only [CaseRun.lists, Bool.and_eq_true, decide_eq_true_eq] at lists
  rw [code, CaseRun.image] at low high
  omega

theorem not_isBlank_of_mem_lowerChar {c lowered : Char} (visible : isBlank c = false)
    (member : lowered ∈ lowerChar c) : isBlank lowered = false := by
  have dotted : isBlank 'i' = false ∧ isBlank '\u0307' = false := by
    decide
  rw [lowerChar] at member
  split at member
  · rw [List.mem_cons, List.mem_singleton] at member
    obtain rfl | rfl := member
    · exact dotted.1
    · exact dotted.2
  · rw [List.mem_singleton.mp member]
    obtain ⟨run, isRun, lists, same⟩ | ⟨-, same⟩ := simpleLower_cases c
    · rw [same]
      exact not_isBlank_of_lists isRun lists
    · rwa [same]

theorem exists_lowerAfter_cons (c : Char) (rest : List Char) (afterCased : Bool) :
    ∃ form cased, lowerAfter afterCased (c :: rest) = form ++ lowerAfter cased rest ∧ form ≠ [] ∧
      (isBlank c = false → ∀ d ∈ form, isBlank d = false) := by
  have sigmas : isBlank 'σ' = false ∧ isBlank 'ς' = false := by
    decide
  refine ⟨_, _, rfl, ?_, fun visible d member => ?_⟩
  · split
    · exact List.cons_ne_nil _ _
    · rw [lowerChar]
      split <;> exact List.cons_ne_nil _ _
  · split at member
    · rw [List.mem_singleton.mp member]
      split
      · exact sigmas.2
      · exact sigmas.1
    · exact not_isBlank_of_mem_lowerChar visible member

theorem plain_getLast?_lowerAfter {text : List Char}
    (plain : ∀ c ∈ text.getLast?, isBlank c = false) (afterCased : Bool) :
    ∀ d ∈ (lowerAfter afterCased text).getLast?, isBlank d = false := by
  induction text generalizing afterCased with
  | nil => simp [lowerAfter]
  | cons c rest ih =>
    obtain ⟨form, cased, whole, -, visible⟩ := exists_lowerAfter_cons c rest afterCased
    rw [whole]
    cases rest with
    | nil =>
      rw [lowerAfter, List.append_nil]
      exact fun d last => visible (plain c rfl) d (List.mem_of_getLast? last)
    | cons next rest =>
      have some : lowerAfter cased (next :: rest) ≠ [] := by
        obtain ⟨form, _, whole, some, -⟩ := exists_lowerAfter_cons next rest cased
        rw [whole]
        exact List.append_ne_nil_of_left_ne_nil some _
      rw [List.getLast?_append_of_ne_nil _ some]
      exact ih plain cased

theorem trimmed_lower {text : List Char} (trimmed : Trimmed text) : Trimmed (lower text) := by
  refine ⟨?_, plain_getLast?_lowerAfter trimmed.2 false⟩
  cases text with
  | nil => simp [lower, lowerAfter]
  | cons c rest =>
    obtain ⟨form, cased, whole, some, visible⟩ := exists_lowerAfter_cons c rest false
    rw [lower, whole, List.head?_append_of_ne_nil _ some]
    exact fun d first => visible (trimmed.1 c rfl) d (List.mem_of_mem_head? first)

theorem lower_append_left {gap : List Char} (blank : ∀ c ∈ gap, isBlank c) (text : List Char) :
    lower (gap ++ text) = gap ++ lower text := by
  induction gap with
  | nil => rfl
  | cons c rest ih =>
    obtain ⟨here, later⟩ := List.forall_mem_cons.mp blank
    rw [List.cons_append, lower, lowerAfter_cons_of_endsWord (endsWord_of_isBlank here),
      lowerChar_of_isLowered (isLowered_of_isBlank here), ih later]
    rfl

theorem lower_append_right {gap : List Char} (blank : ∀ c ∈ gap, isBlank c) (text : List Char) :
    lower (text ++ gap) = lower text ++ gap := by
  have ended : ∀ c ∈ gap.head?, EndsWord c := fun c first =>
    endsWord_of_isBlank (blank c (List.mem_of_mem_head? first))
  obtain ⟨cased, split⟩ := lowerAfter_append text ended false
  rw [lower, split, lower, lowerAfter_eq_self fun c member => isLowered_of_isBlank (blank c member)]

/-- **Lower-casing and trimming** may be done in either order. -/
theorem lower_trim (text : List Char) : lower (trim text) = trim (lower text) := by
  obtain ⟨before, after, whole, left, right⟩ := exists_trim text
  have lowered : lower text = before ++ lower (trim text) ++ after := by
    conv_lhs => rw [whole, lower_append_right right, lower_append_left left]
  rw [lowered, trim_pad (trimmed_lower (trimmed_trim text)) left right]

/-! ## Texts without a capital sigma -/

/-- Without a capital sigma every character is lower-cased on its own. -/
theorem lower_eq_flatMap {text : List Char} (noSigma : 'Σ' ∉ text) :
    lower text = text.flatMap lowerChar := by
  have every (afterCased : Bool) : lowerAfter afterCased text = text.flatMap lowerChar := by
    induction text generalizing afterCased with
    | nil => rfl
    | cons c rest ih =>
      obtain ⟨here, later⟩ := List.ne_and_not_mem_of_not_mem_cons noSigma
      rw [lowerAfter, if_neg here.symm, ih later, List.flatMap_cons]
  exact every false

theorem exists_lowerAfter_append (before rest : List Char) (afterCased : Bool) :
    ∃ front cased, lowerAfter afterCased (before ++ rest) = front ++ lowerAfter cased rest := by
  induction before generalizing afterCased with
  | nil => exact ⟨[], afterCased, rfl⟩
  | cons c before ih =>
    obtain ⟨form, next, first, -⟩ := exists_lowerAfter_cons c (before ++ rest) afterCased
    obtain ⟨front, cased, whole⟩ := ih next
    exact ⟨form ++ front, cased, by rw [List.cons_append, first, whole, List.append_assoc]⟩

theorem exists_lowerAfter_append_of_noSigma {part : List Char} (noSigma : 'Σ' ∉ part)
    (rest : List Char) (afterCased : Bool) :
    ∃ back, lowerAfter afterCased (part ++ rest) = lower part ++ back := by
  rw [lower_eq_flatMap noSigma]
  induction part generalizing afterCased with
  | nil => exact ⟨_, rfl⟩
  | cons c part ih =>
    obtain ⟨here, later⟩ := List.ne_and_not_mem_of_not_mem_cons noSigma
    obtain ⟨back, whole⟩ := ih later (if isCaseIgnorable c then afterCased else isCased c)
    refine ⟨back, ?_⟩
    rw [List.cons_append, lowerAfter, if_neg here.symm, whole, List.flatMap_cons, List.append_assoc]

/-- **A part without a capital sigma is lower-cased as if it stood alone**, wherever it stands. -/
theorem lower_infix_of_noSigma {part text : List Char} (inside : part <:+: text)
    (noSigma : 'Σ' ∉ part) : lower part <:+: lower text := by
  obtain ⟨before, after, rfl⟩ := inside
  obtain ⟨front, cased, whole⟩ := exists_lowerAfter_append before (part ++ after) false
  obtain ⟨back, rest⟩ := exists_lowerAfter_append_of_noSigma noSigma after cased
  refine ⟨front, back, ?_⟩
  rw [List.append_assoc, ← rest, ← whole, ← List.append_assoc]
  rfl

/-- A capital sigma becomes one of the small ones. -/
theorem sigma_mem_lowerAfter {text : List Char} (sigma : 'Σ' ∈ text) (afterCased : Bool) :
    'σ' ∈ lowerAfter afterCased text ∨ 'ς' ∈ lowerAfter afterCased text := by
  induction text generalizing afterCased with
  | nil => cases sigma
  | cons c rest ih =>
    rw [lowerAfter, List.mem_append, List.mem_append]
    rcases List.mem_cons.mp sigma with rfl | later
    · rw [if_pos rfl]
      split
      · exact .inr (.inl List.mem_cons_self)
      · exact .inl (.inl List.mem_cons_self)
    · exact (ih later _).imp .inr .inr

end DeckBuilder.Text

namespace DeckBuilder

theorem lowercase_lowercase (text : String) : lowercase (lowercase text) = lowercase text := by
  rw [lowercase, lowercase, String.toList_ofList, Text.lower_lower]

end DeckBuilder
