import DeckBuilder.Filter.Codec
import Mathlib.Algebra.BigOperators.Fin
import Mathlib.Data.Int.ModEq
import Mathlib.Tactic.Ring

/-! # The rolling hash

The UTF-16 form of a text, said without the function that writes it, and the polynomial whose
coefficients are the code units of a text. The rolling hash is the value of that polynomial at 31,
read as a signed number of 32 bits: reducing it after every step comes to reducing it once.
-/

namespace DeckBuilder

open scoped BigOperators

namespace Text

/-! ## Code units -/

/-- The units of a character: the character itself in the basic plane, and beyond it a high and a
low surrogate with ten bits each of what exceeds the plane. -/
inductive Encodes : Char → List UInt16 → Prop
  | basic {c : Char} {unit : UInt16} (same : unit.toNat = c.toNat) : Encodes c [unit]
  | pair {c : Char} {high low : UInt16} (isHigh : 0xD800 ≤ high.toNat ∧ high.toNat < 0xDC00)
      (isLow : 0xDC00 ≤ low.toNat ∧ low.toNat < 0xE000)
      (value : c.toNat =
        0x10000 + (high.toNat - 0xD800) * 0x400 + (low.toNat - 0xDC00)) : Encodes c [high, low]

/-- The units of a text: those of its characters, one after the other. -/
def Utf16 (text : String) (units : List UInt16) : Prop :=
  ∃ pieces, List.Forall₂ Encodes text.toList pieces ∧ pieces.flatten = units

theorem toNat_lt_of_char (c : Char) : c.toNat < 0x110000 := by
  rcases c.valid with low | ⟨-, high⟩
  · exact Nat.lt_trans low (by decide)
  · exact high

theorem encodes_codeUnits (c : Char) : Encodes c (codeUnits c) := by
  have bound := toNat_lt_of_char c
  have word {n : Nat} (small : n < 0x10000) : (UInt16.ofNat n).toNat = n :=
    UInt16.toNat_ofNat_of_lt' small
  unfold codeUnits
  by_cases basic : c.toNat < 0x10000
  · rw [if_pos basic]
    exact .basic (word basic)
  · rw [if_neg basic]
    refine .pair ?_ ?_ ?_ <;> rw [word (by omega)]
    · omega
    · omega
    · rw [word (by omega)]
      omega

/-- Only a pair is beyond the basic plane, and a pair has its ten bits twice. -/
theorem Encodes.unique {c : Char} {first second : List UInt16} (left : Encodes c first)
    (right : Encodes c second) : first = second := by
  cases left with
  | @basic unit same =>
    have small := unit.toNat_lt
    cases right with
    | basic alsoSame => rw [UInt16.toNat_inj.mp (same.trans alsoSame.symm)]
    | pair isHigh isLow value => omega
  | @pair high low isHigh isLow value =>
    cases right with
    | @basic unit same =>
      have small := unit.toNat_lt
      omega
    | @pair otherHigh otherLow alsoHigh alsoLow alsoValue =>
      have highs : high = otherHigh := UInt16.toNat_inj.mp (by omega)
      have lows : low = otherLow := UInt16.toNat_inj.mp (by omega)
      rw [highs, lows]

theorem encodes_iff {c : Char} {units : List UInt16} : Encodes c units ↔ codeUnits c = units :=
  ⟨(encodes_codeUnits c).unique, fun same => same ▸ encodes_codeUnits c⟩

theorem utf16_iff {text : String} {units : List UInt16} :
    Utf16 text units ↔ text.toList.flatMap codeUnits = units := by
  have written : Encodes = fun c units => codeUnits c = units :=
    funext₂ fun _ _ => propext encodes_iff
  unfold Utf16
  rw [written, List.flatMap]
  simp only [← List.forall₂_map_left_iff, List.forall₂_eq_eq_eq, exists_eq_left']

/-! ## The polynomial -/

/-- The value at 31 of the polynomial whose coefficients are the units, the first one leading. -/
def polynomial (units : List UInt16) : Nat :=
  ∑ place : Fin units.length, units[place].toNat * 31 ^ (units.length - 1 - place)

theorem polynomial_nil : polynomial [] = 0 :=
  rfl

theorem polynomial_cons (unit : UInt16) (units : List UInt16) :
    polynomial (unit :: units) = unit.toNat * 31 ^ units.length + polynomial units := by
  refine (Fin.sum_univ_succ _).trans (congrArg₂ _ rfl (Finset.sum_congr rfl fun place _ => ?_))
  have exponent : units.length + 1 - 1 - (place + 1 : Nat) = units.length - 1 - place := by omega
  exact congrArg (units[place].toNat * 31 ^ ·) exponent

/-- The leading units weigh as much more as there are units after them. -/
theorem polynomial_append (first second : List UInt16) :
    polynomial (first ++ second) = polynomial first * 31 ^ second.length + polynomial second := by
  induction first with
  | nil => simp [polynomial_nil]
  | cons unit rest ih =>
    rw [List.cons_append, polynomial_cons, polynomial_cons, ih, List.length_append]
    ring

/-! ## One step -/

theorem shiftLeft_five (hash : Int32) : hash <<< 5 = hash * 32 := by
  apply Int32.toBitVec_inj.mp
  rw [Int32.toBitVec_shiftLeft, Int32.toBitVec_mul]
  exact (BitVec.mul_twoPow_eq_shiftLeft hash.toBitVec 5).symm

/-- A step on a number that was reduced is the exact step, reduced. -/
theorem hashStep_ofInt (value : Int) (unit : UInt16) :
    hashStep (.ofInt value) unit = .ofInt (value * 31 + unit.toNat) := by
  have scaled : value * 31 = value * 32 - value := by ring
  rw [hashStep, shiftLeft_five, scaled, Int32.ofInt_add, Int32.ofInt_sub, Int32.ofInt_mul,
    Int32.ofInt_eq_ofNat]
  rfl

/-- Each operation of a step gives the exact result, reduced to 32 bits. Taking the unit as a number
of 32 bits needs no reduction. -/
structure StepWraps (hash : Int32) (unit : UInt16) : Prop where
  shifted : (hash <<< 5).toInt = (hash.toInt * 2 ^ 5).bmod (2 ^ 32)
  lessened : (hash <<< 5 - hash).toInt = ((hash <<< 5).toInt - hash.toInt).bmod (2 ^ 32)
  widened : (Int32.ofNat unit.toNat).toInt = unit.toNat
  added : (hashStep hash unit).toInt =
    ((hash <<< 5 - hash).toInt + unit.toNat).bmod (2 ^ 32)

theorem stepWraps (hash : Int32) (unit : UInt16) : StepWraps hash unit := by
  have widened : (Int32.ofNat unit.toNat).toInt = unit.toNat :=
    Int32.toInt_ofNat_of_lt (unit.toNat_lt.trans (by decide))
  refine ⟨?_, Int32.toInt_sub _ _, widened, ?_⟩
  · rw [shiftLeft_five, Int32.toInt_mul]
    rfl
  · rw [hashStep, Int32.toInt_add, widened]

/-! ## Texts -/

theorem foldl_hashStep (units : List UInt16) (start : Int) :
    units.foldl hashStep (.ofInt start) =
      .ofInt (start * 31 ^ units.length + polynomial units) := by
  induction units generalizing start with
  | nil => simp [polynomial_nil]
  | cons unit units ih =>
    rw [List.foldl_cons, hashStep_ofInt, ih, polynomial_cons]
    refine congrArg Int32.ofInt ?_
    push_cast [List.length_cons]
    ring

theorem foldl_hashStep_zero (units : List UInt16) :
    units.foldl hashStep 0 = .ofInt (polynomial units) := by
  have rolled := foldl_hashStep units 0
  rwa [Int.zero_mul, Int.zero_add] at rolled

/-- However many units are rolled up, reducing after every step comes to reducing once. -/
theorem toInt_foldl_hashStep (units : List UInt16) :
    (units.foldl hashStep 0).toInt = (polynomial units : Int).bmod (2 ^ 32) := by
  rw [foldl_hashStep_zero]
  exact Int32.toInt_ofInt

theorem toInt_ofInt_modEq (value : Int) : (Int32.ofInt value).toInt ≡ value [ZMOD 2 ^ 32] := by
  rw [Int32.toInt_ofInt]
  exact Int.bmod_emod

theorem Utf16.append {first second : String} {units others : List UInt16}
    (left : Utf16 first units) (right : Utf16 second others) :
    Utf16 (first ++ second) (units ++ others) := by
  rw [utf16_iff] at left right ⊢
  rw [String.toList_append, List.flatMap_append, left, right]

end Text

theorem rollingHash_eq_foldl {text : String} {units : List UInt16}
    (written : Text.Utf16 text units) : rollingHash text = units.foldl Text.hashStep 0 := by
  rw [rollingHash, ← List.foldl_flatMap, Text.utf16_iff.mp written]

theorem rollingHash_eq_ofInt {text : String} {units : List UInt16}
    (written : Text.Utf16 text units) : rollingHash text = .ofInt (Text.polynomial units) :=
  (rollingHash_eq_foldl written).trans (Text.foldl_hashStep_zero units)

theorem rollingHash_append {first second : String} {others : List UInt16}
    (written : Text.Utf16 second others) :
    (rollingHash (first ++ second)).toInt ≡
      (rollingHash first).toInt * 31 ^ others.length + (rollingHash second).toInt
        [ZMOD 2 ^ 32] := by
  have leading := Text.utf16_iff.mpr (Eq.refl (first.toList.flatMap Text.codeUnits))
  rw [rollingHash_eq_ofInt (leading.append written), rollingHash_eq_ofInt leading,
    rollingHash_eq_ofInt written, Text.polynomial_append]
  generalize first.toList.flatMap Text.codeUnits = units
  have lead := Text.toInt_ofInt_modEq (Text.polynomial units)
  have rest := Text.toInt_ofInt_modEq (Text.polynomial others)
  refine (Text.toInt_ofInt_modEq _).trans ?_
  push_cast
  exact ((lead.mul_right _).add rest).symm

/-- **The rolling hash is the polynomial of the code units, read as a signed number of 32 bits.**
Every text has one UTF-16 form. Rolling up some of its units gives the value of their polynomial,
reduced once, and so does rolling up all of them. A text behind another one shifts the hash of that
by as many powers of 31 as it has units. No operation of a step does more than wrap. -/
theorem rollingHash_polynomial :
    (∀ text, ∃! units, Text.Utf16 text units) ∧
    (∀ text units, Text.Utf16 text units →
      (rollingHash text).toInt = (Text.polynomial units : Int).bmod (2 ^ 32)) ∧
    (∀ first second others, Text.Utf16 second others →
      (rollingHash (first ++ second)).toInt ≡
        (rollingHash first).toInt * 31 ^ others.length + (rollingHash second).toInt
          [ZMOD 2 ^ 32]) ∧
    -- The steps on the way.
    (∀ text before after, Text.Utf16 text (before ++ after) →
      rollingHash text = after.foldl Text.hashStep (before.foldl Text.hashStep 0) ∧
        (before.foldl Text.hashStep 0).toInt =
          (Text.polynomial before : Int).bmod (2 ^ 32)) ∧
    ∀ hash unit, Text.StepWraps hash unit := by
  refine ⟨?_, ?_, fun first second others => rollingHash_append, ?_, Text.stepWraps⟩
  · intro text
    simp only [Text.utf16_iff, existsUnique_eq']
  · intro text units written
    rw [rollingHash_eq_foldl written, Text.toInt_foldl_hashStep]
  · intro text before after written
    rw [rollingHash_eq_foldl written, List.foldl_append]
    exact ⟨rfl, Text.toInt_foldl_hashStep before⟩

/-- A text with a character of two units, and with a polynomial of more than 32 bits. -/
theorem rollingHash_polynomial_forest :
    Text.Utf16 "Forest 𝄞" [70, 111, 114, 101, 115, 116, 32, 0xD834, 0xDD1E] ∧
      Text.polynomial [70, 111, 114, 101, 115, 116, 32, 0xD834, 0xDD1E] = 62860451214893 ∧
      (rollingHash "Forest 𝄞").toInt = -690129363 ∧
      (rollingHash ("Forest" ++ " 𝄞")).toInt ≡
        (rollingHash "Forest").toInt * 31 ^ 3 + (rollingHash " 𝄞").toInt [ZMOD 2 ^ 32] := by
  obtain ⟨-, value, joined, -, -⟩ := rollingHash_polynomial
  have written : Text.Utf16 "Forest 𝄞" [70, 111, 114, 101, 115, 116, 32, 0xD834, 0xDD1E] :=
    Text.utf16_iff.mpr (by decide)
  have last : Text.Utf16 " 𝄞" [32, 0xD834, 0xDD1E] := Text.utf16_iff.mpr (by decide)
  have sum : Text.polynomial [70, 111, 114, 101, 115, 116, 32, 0xD834, 0xDD1E] =
      62860451214893 := by
    simp [Text.polynomial_cons, Text.polynomial_nil]
  refine ⟨written, sum, ?_, ?_⟩
  · rw [value _ _ written, sum]
    rfl
  · simpa only [List.length_cons, List.length_nil, Nat.reduceAdd] using
      joined "Forest" " 𝄞" _ last

end DeckBuilder
