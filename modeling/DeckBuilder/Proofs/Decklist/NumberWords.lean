import DeckBuilder.Decklist.CopyLimit
import DeckBuilder.Proofs.Text.Decimal
import DeckBuilder.Proofs.Text.Pieces

/-! # Copy limits as they are written

A card writes its copy limit in digits or as an English number word, in a phrase of its rules text.
The first phrase counts. Digits are read for what they denote, words for what they denote up to
twenty; of a larger number only one part is read, or none.
-/

namespace DeckBuilder

namespace CopyLimit

open Text

/-! ## The first phrase -/

/-- What stands before the number. -/
def openings : List String :=
  ["deck can have up to ", "deck may have up to "]

/-- Lower-case letters, digits and hyphens, at least one. -/
def IsToken (token : List Char) : Prop :=
  token ≠ [] ∧ ∀ c ∈ token, isNumberChar c

/-- The text starts with a phrase that writes the token. -/
def Phrase (token text : List Char) : Prop :=
  ∃ opening ∈ openings, ∃ after,
    text = opening.toList ++ (token ++ (" cards named".toList ++ after))

/-- The token is written in the phrase that starts first. -/
def FirstPhrase (token text : List Char) : Prop :=
  ∃ before rest, text = before ++ rest ∧ Phrase token rest ∧
    ∀ earlier tail other, text = earlier ++ tail → IsToken other → Phrase other tail →
      before.length ≤ earlier.length

theorem countedAt?_eq_some_iff {text token : List Char} : countedAt? text = some token ↔
    IsToken token ∧ ∃ after, text = token ++ (" cards named".toList ++ after) := by
  unfold countedAt? IsToken
  constructor
  · intro counted
    obtain ⟨some, counted⟩ := Option.ite_none_left_eq_some.mp counted
    obtain ⟨after, follows, rfl⟩ := Option.map_eq_some_iff.mp counted
    refine ⟨⟨by simpa using some, fun _ => List.mem_takeWhile_imp⟩, after, ?_⟩
    rw [← afterOpening?_eq_some_iff.mp follows, List.takeWhile_append_dropWhile]
  · rintro ⟨⟨some, all⟩, after, rfl⟩
    have taken : (token ++ (" cards named".toList ++ after)).takeWhile isNumberChar = token := by
      rw [List.takeWhile_append_of_pos all]
      exact List.append_nil token
    have dropped : (token ++ (" cards named".toList ++ after)).dropWhile isNumberChar =
        " cards named".toList ++ after := by
      rw [List.dropWhile_append_of_pos all]
      rfl
    rw [taken, dropped, afterOpening?_eq_some_iff.mpr rfl]
    simp [some]

theorem phraseAt?_eq_some_iff {text token : List Char} :
    phraseAt? text = some token ↔ IsToken token ∧ Phrase token text := by
  have opened {rest : List Char} :
      (Text.afterOpening? "deck can have up to ".toList text).or
        (Text.afterOpening? "deck may have up to ".toList text) = some rest ↔
      ∃ opening ∈ openings, text = opening.toList ++ rest := by
    rw [Option.or_eq_some_iff, afterOpening?_eq_some_iff, afterOpening?_eq_some_iff]
    simp only [openings, List.mem_cons, List.not_mem_nil, or_false, exists_eq_or_imp,
      exists_eq_left]
    refine or_congr_right (and_iff_right_of_imp ?_)
    rintro rfl
    rfl
  simp only [phraseAt?, Option.bind_eq_some_iff, opened, countedAt?_eq_some_iff, Phrase]
  constructor
  · rintro ⟨_, ⟨opening, listed, rfl⟩, isToken, after, rfl⟩
    exact ⟨isToken, opening, listed, after, rfl⟩
  · rintro ⟨isToken, opening, listed, after, rfl⟩
    exact ⟨_, ⟨opening, listed, rfl⟩, isToken, after, rfl⟩

/-- The search finds the phrase that starts first. -/
theorem phrase?_eq_some_iff {text token : List Char} :
    phrase? text = some token ↔ IsToken token ∧ FirstPhrase token text := by
  induction text with
  | nil =>
    refine iff_of_false nofun ?_
    rintro ⟨-, before, rest, split, ⟨opening, listed, after, rfl⟩, -⟩
    simp at split
  | cons c text ih =>
    rw [phrase?, Option.or_eq_some_iff, ih, phraseAt?_eq_some_iff]
    constructor
    · rintro (⟨isToken, phrase⟩ | ⟨none, isToken, before, rest, rfl, phrase, least⟩)
      · exact ⟨isToken, [], c :: text, rfl, phrase, fun _ _ _ _ _ _ => Nat.zero_le _⟩
      · refine ⟨isToken, c :: before, rest, rfl, phrase, ?_⟩
        intro earlier tail other split isOther starts
        cases earlier with
        | nil =>
          rw [List.nil_append] at split
          subst split
          rw [phraseAt?_eq_some_iff.mpr ⟨isOther, starts⟩] at none
          cases none
        | cons _ earlier =>
          exact Nat.succ_le_succ (least earlier tail other (List.cons.inj split).2 isOther starts)
    · rintro ⟨isToken, before, rest, split, phrase, least⟩
      cases before with
      | nil => exact .inl ⟨isToken, split ▸ phrase⟩
      | cons _ before =>
        obtain ⟨rfl, rfl⟩ := List.cons.inj split
        refine .inr ⟨?_, isToken, before, rest, rfl, phrase, ?_⟩
        · refine Option.eq_none_iff_forall_ne_some.mpr fun other found => ?_
          obtain ⟨isOther, starts⟩ := phraseAt?_eq_some_iff.mp found
          cases least [] _ other rfl isOther starts
        · intro earlier tail other split isOther starts
          exact Nat.le_of_succ_le_succ
            (least (c :: earlier) tail other (congrArg (c :: ·) split) isOther starts)

/-! ## Number words -/

/-- The English words for the numbers below twenty. -/
def smallWords : List String :=
  ["zero", "one", "two", "three", "four", "five", "six", "seven", "eight", "nine", "ten", "eleven",
    "twelve", "thirteen", "fourteen", "fifteen", "sixteen", "seventeen", "eighteen", "nineteen"]

/-- The English words for the tens from twenty on. -/
def tensWords : List String :=
  ["twenty", "thirty", "forty", "fifty", "sixty", "seventy", "eighty", "ninety"]

def smallWord (n : Nat) : List Char :=
  (smallWords.getD n "").toList

def tensWord (tens : Nat) : List Char :=
  (tensWords.getD (tens - 2) "").toList

/-- The English word for a number below a hundred. -/
def spelled (n : Nat) : List Char :=
  if n < 20 then smallWord n
  else if n % 10 = 0 then tensWord (n / 10)
  else tensWord (n / 10) ++ '-' :: smallWord (n % 10)

/-- The number that is read where a number word stands. From twenty on only the tens of words with
twenty are read, only the units of other compounds, and nothing of other tens, for which one
stands. -/
def readAs (n : Nat) : Nat :=
  if n < 20 then n else if n / 10 = 2 then 20 else if n % 10 = 0 then 1 else n % 10

/-- Lower-case letters, at least one. -/
def IsWord (word : List Char) : Prop :=
  word ≠ [] ∧ word.all (·.isLower)

theorem isWord_smallWord {n : Nat} (small : n < 20) : IsWord (smallWord n) := by
  unfold IsWord
  revert n
  decide

theorem isWord_tensWord {tens : Nat} (two : 2 ≤ tens) (small : tens < 10) :
    IsWord (tensWord tens) := by
  unfold IsWord
  revert tens
  decide

theorem ofWord?_smallWord {n : Nat} (positive : 1 ≤ n) (small : n < 20) :
    ofWord? (smallWord n) = some (UInt32.ofNat n) := by
  revert n
  decide

theorem ofWord?_tensWord {tens : Nat} (two : 2 ≤ tens) (small : tens < 10) :
    ofWord? (tensWord tens) = if tens = 2 then some 20 else none := by
  revert tens
  decide

section

variable {word unit : List Char} (isWord : IsWord word)

include isWord

theorem IsWord.isLower : ∀ c ∈ word, c.isLower :=
  List.all_eq_true.mp isWord.2

theorem IsWord.ne_hyphen : ∀ c ∈ word, decide (c = '-') = false := by
  intro c member
  refine decide_eq_false ?_
  rintro rfl
  exact absurd (isWord.isLower '-' member) (by decide)

theorem IsWord.isToken : IsToken word :=
  ⟨isWord.1, fun c member => by
    rw [isNumberChar, isWord.isLower c member, Bool.true_or, Bool.true_or]⟩

theorem IsWord.isToken_compound (isUnit : IsWord unit) : IsToken (word ++ '-' :: unit) := by
  refine ⟨by simp, fun c member => ?_⟩
  rcases List.mem_append.mp member with tens | units
  · exact isWord.isToken.2 c tens
  · rcases List.mem_cons.mp units with rfl | units
    · rfl
    · exact isUnit.isToken.2 c units

theorem IsWord.word?_append (rest : List Char) : word? (word ++ rest) = none := by
  obtain ⟨c, word, rfl⟩ := List.exists_cons_of_ne_nil isWord.1
  exact word?_cons_of_isLower (isWord.isLower c List.mem_cons_self) _

theorem ofToken?_of_isWord : ofToken? word = ofWord? word := by
  have digits := isWord.word?_append []
  rw [List.append_nil] at digits
  rw [ofToken?, digits, splitWhere_eq_splitOnP, List.splitOnP_eq_singleton isWord.ne_hyphen]
  simp

/-- Of a compound the first part that is a number word is read. -/
theorem ofToken?_compound (isUnit : IsWord unit) :
    ofToken? (word ++ '-' :: unit) = (ofWord? word).or (ofWord? unit) := by
  rw [ofToken?, isWord.word?_append, splitWhere_eq_splitOnP,
    List.splitOnP_append_cons_of_forall_mem isWord.ne_hyphen _ rfl,
    List.splitOnP_eq_singleton isUnit.ne_hyphen]
  simp only [Option.none_or, List.findSome?_cons, List.findSome?_nil]
  cases ofWord? word <;> cases ofWord? unit <;> rfl

end

theorem isToken_of_denotes {token : List Char} {n : Nat} (denotes : Denotes token n) :
    IsToken token := by
  obtain ⟨digits, rfl, small, some, -⟩ := denotes
  refine ⟨by simpa using some, fun c member => ?_⟩
  obtain ⟨digit, listed, rfl⟩ := List.mem_map.mp member
  have isDigit : ∀ digit < 10, isNumberChar (Nat.digitChar digit) := by decide
  exact isDigit digit (small digit listed)

theorem isToken_spelled {n : Nat} (positive : 1 ≤ n) (small : n ≤ 99) : IsToken (spelled n) := by
  unfold spelled
  split
  · rename_i below
    exact (isWord_smallWord below).isToken
  · have tens : IsWord (tensWord (n / 10)) := isWord_tensWord (by omega) (by omega)
    split
    · exact tens.isToken
    · exact tens.isToken_compound (isWord_smallWord (by omega))

theorem ofToken?_spelled {n : Nat} (positive : 1 ≤ n) (small : n ≤ 99) :
    (ofToken? (spelled n)).getD 1 = UInt32.ofNat (readAs n) := by
  unfold spelled readAs
  by_cases below : n < 20
  · rw [if_pos below, if_pos below, ofToken?_of_isWord (isWord_smallWord below),
      ofWord?_smallWord positive below, Option.getD_some]
  · have tens : IsWord (tensWord (n / 10)) := isWord_tensWord (by omega) (by omega)
    have known : ofWord? (tensWord (n / 10)) = if n / 10 = 2 then some 20 else none :=
      ofWord?_tensWord (by omega) (by omega)
    by_cases round : n % 10 = 0
    · simp only [below, round, ↓reduceIte, ofToken?_of_isWord tens, known]
      split <;> rfl
    · have unit : IsWord (smallWord (n % 10)) := isWord_smallWord (by omega)
      have units : ofWord? (smallWord (n % 10)) = some (UInt32.ofNat (n % 10)) :=
        ofWord?_smallWord (by omega) (by omega)
      simp only [below, round, ↓reduceIte, ofToken?_compound tens unit, known, units]
      split <;> rfl

theorem readAs_eq_self_iff {n : Nat} (positive : 1 ≤ n) (small : n ≤ 99) :
    UInt32.ofNat (readAs n) = UInt32.ofNat n ↔ n ≤ 20 := by
  have word : 99 < UInt32.size := by decide
  have read : readAs n ≤ 99 := by
    unfold readAs
    split_ifs <;> omega
  rw [← UInt32.toNat_inj, UInt32.toNat_ofNat_of_lt' (Nat.lt_of_le_of_lt read word),
    UInt32.toNat_ofNat_of_lt' (Nat.lt_of_le_of_lt small word), readAs]
  split_ifs <;> omega

end CopyLimit

/-! ## The limit of a card -/

namespace Card

/-- The lower-cased rules text. -/
def rulesText (card : Card) : List Char :=
  Text.lower ((card.oracleText.getD "").toList)

variable {card : Card} (notBasic : card.isBasicLandType = false)
  (restricted : card.allowsAnyNumber = false)

include notBasic restricted

theorem allowedCopies_of_firstPhrase {token : List Char} (isToken : CopyLimit.IsToken token)
    (first : CopyLimit.FirstPhrase token card.rulesText) :
    card.allowedCopies = .limited ((CopyLimit.ofToken? token).getD 1) := by
  have found := CopyLimit.phrase?_eq_some_iff.mpr ⟨isToken, first⟩
  rw [rulesText] at found
  simp only [allowedCopies, notBasic, restricted, Bool.or_self, Bool.false_eq_true, ↓reduceIte,
    found, Option.bind_some]

/-- **A limit in digits is the number written, one in words only up to twenty.** -/
theorem allowedCopies_of_written :
    (∀ (n : UInt32) (token : List Char), Text.Denotes token n.toNat →
      CopyLimit.FirstPhrase token card.rulesText → card.allowedCopies = .limited n) ∧
    (∀ n, 1 ≤ n → n ≤ 99 → CopyLimit.FirstPhrase (CopyLimit.spelled n) card.rulesText →
      card.allowedCopies = .limited (UInt32.ofNat (CopyLimit.readAs n)) ∧
        (card.allowedCopies = .limited (UInt32.ofNat n) ↔ n ≤ 20)) := by
  constructor
  · intro n token denotes first
    rw [allowedCopies_of_firstPhrase notBasic restricted (CopyLimit.isToken_of_denotes denotes)
      first, CopyLimit.ofToken?, Text.word?_of_denotes denotes, Option.some_or, Option.getD_some]
  · intro n positive small first
    rw [allowedCopies_of_firstPhrase notBasic restricted
      (CopyLimit.isToken_spelled positive small) first, CopyLimit.ofToken?_spelled positive small]
    refine ⟨rfl, ?_⟩
    rw [CopyLimit.limited.injEq]
    exact CopyLimit.readAs_eq_self_iff positive small

end Card

/-- A card that names its copy limit. -/
def rat (limit : String) : Card :=
  ⟨"rat", "Rat", some ("A deck can have up to " ++ limit ++ " cards named Rat."), 0, [], "Creature",
    .normal, [], [], []⟩

theorem isBasicLandType_rat (limit : String) : (rat limit).isBasicLandType = false := by
  change (rat "").isBasicLandType = false
  decide +kernel

theorem firstPhrase_rat_twentyOne :
    CopyLimit.FirstPhrase (CopyLimit.spelled 21) (rat "twenty-one").rulesText :=
  (CopyLimit.phrase?_eq_some_iff.mp (by decide +kernel)).2

theorem allowsAnyNumber_rat_twentyOne : (rat "twenty-one").allowsAnyNumber = false := by
  decide +kernel

theorem allowedCopies_of_written_rat :
    CopyLimit.FirstPhrase "12".toList (rat "12").rulesText ∧
      (rat "12").allowedCopies = .limited 12 ∧
      CopyLimit.FirstPhrase (CopyLimit.spelled 21) (rat "twenty-one").rulesText ∧
      (rat "twenty-one").allowedCopies = .limited 20 := by
  have digits : CopyLimit.FirstPhrase "12".toList (rat "12").rulesText :=
    (CopyLimit.phrase?_eq_some_iff.mp (by decide +kernel)).2
  have twelve := Card.allowedCopies_of_written (isBasicLandType_rat "12") (by decide +kernel)
  have twentyOne := Card.allowedCopies_of_written (isBasicLandType_rat "twenty-one")
    allowsAnyNumber_rat_twentyOne
  exact ⟨digits, twelve.1 12 _ (Text.denotes_numeral 12) digits, firstPhrase_rat_twentyOne,
    (twentyOne.2 21 (by decide) (by decide) firstPhrase_rat_twentyOne).1⟩

/-- Of twenty-one copies only twenty are allowed. -/
theorem allowedCopies_ne_written_rat :
    CopyLimit.spelled 21 = "twenty-one".toList ∧
      CopyLimit.FirstPhrase (CopyLimit.spelled 21) (rat "twenty-one").rulesText ∧
      (rat "twenty-one").isBasicLandType = false ∧ (rat "twenty-one").allowsAnyNumber = false ∧
      (rat "twenty-one").allowedCopies ≠ .limited 21 := by
  refine ⟨by decide, firstPhrase_rat_twentyOne, isBasicLandType_rat _,
    allowsAnyNumber_rat_twentyOne, ?_⟩
  rw [Card.allowedCopies_of_firstPhrase (isBasicLandType_rat _) allowsAnyNumber_rat_twentyOne
    (CopyLimit.isToken_spelled (by decide) (by decide)) firstPhrase_rat_twentyOne,
    CopyLimit.ofToken?_spelled (by decide) (by decide)]
  decide

end DeckBuilder
