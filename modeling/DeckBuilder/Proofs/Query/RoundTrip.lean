import DeckBuilder.Proofs.Text.Decimal
import DeckBuilder.Proofs.Text.Lowercase
import DeckBuilder.Query.Parser
import Mathlib.Data.List.Infix

/-! # Written clauses

A clause is read back as it was written: in whatever case its opening is, with blanks around its
parts, and with the exclamation marks that negate it in front of the opening or right after it. No
opening is taken for another one, since of two openings that fit the longer one stands first.
-/

namespace DeckBuilder

open Text

/-- A text that a clause keeps as it is: trimmed, in lower case and without an exclamation mark at
its start. -/
structure Query.IsCanonical (text : List Char) : Prop where
  trimmed : Trimmed text
  lowered : lower text = text
  unmarked : text.head? ≠ some '!'

theorem Query.IsCanonical.noSigma {text : List Char} (canonical : IsCanonical text) :
    'Σ' ∉ text := by
  intro sigma
  rw [← canonical.lowered] at sigma
  exact ne_sigma_of_isLowered (isLowered_of_mem_lowerAfter sigma) rfl

namespace ClauseKind

/-! ## The order of the openings -/

/-- The clause asks for a number. -/
def asksNumber : ClauseKind → Bool
  | manaValue _ => true
  | _ => false

variable {opening : String} {kind : ClauseKind}

/-- How the value of a test is written: a text as it is, a rarity in full or by its first letter and
colors by their letters, these in any case, and a number in decimal. -/
inductive Writes : ClauseKind → Predicate → List Char → Prop where
  | inSet {text} (canonical : Query.IsCanonical text) :
      Writes .inSet (.inSet (String.ofList text)) text
  | ofType {text} (canonical : Query.IsCanonical text) :
      Writes .ofType (.ofType (String.ofList text)) text
  | oracle {text} (canonical : Query.IsCanonical text) :
      Writes .oracle (.oracle (String.ofList text)) text
  | flavor {text} (canonical : Query.IsCanonical text) :
      Writes .flavor (.flavor (String.ofList text)) text
  | rarity {rarity word} (usual : rarity ∈ Rarity.usual)
      (named : lower word ∈ [rarity.name.toList, rarity.name.toList.take 1]) :
      Writes .rarity (.rarity rarity) word
  | colors {listed : List Color} {letters}
      (named : lower letters = listed.map (·.letter.toLower)) :
      Writes .colors (.colors listed) letters
  | manaValue {comparator} {number : UInt32} :
      Writes (.manaValue comparator) (.manaValue comparator number) (numeral number.toNat)

theorem lower_numeral (n : Nat) : lower (numeral n) = numeral n := by
  have digits : ∀ digit < 10, IsLowered (Nat.digitChar digit) := by
    decide +kernel
  refine lowerAfter_eq_self (fun c member => ?_) false
  obtain ⟨digit, small, rfl⟩ := exists_digit_of_mem_numeral member
  exact digits digit small

/-- A character that stands for nothing but a part of a value: neither a blank nor a mark, and no
sigma. -/
def IsPlain (c : Char) : Prop :=
  isBlank c = false ∧ c ∉ ['!', '=', 'σ', 'ς']

instance (c : Char) : Decidable (IsPlain c) :=
  inferInstanceAs (Decidable (_ ∧ _))

namespace Writes

variable {predicate : Predicate} {value : List Char}

/-- A value is a text to search for or else has plain characters only. -/
theorem canonical_or_plain (writes : kind.Writes predicate value) :
    kind.asksNumber = false ∧ Query.IsCanonical value ∨ ∀ c ∈ lower value, IsPlain c := by
  cases writes with
  | inSet canonical => exact .inl ⟨rfl, canonical⟩
  | ofType canonical => exact .inl ⟨rfl, canonical⟩
  | oracle canonical => exact .inl ⟨rfl, canonical⟩
  | flavor canonical => exact .inl ⟨rfl, canonical⟩
  | @rarity rarity _ usual named =>
    have plain : ∀ rarity ∈ Rarity.usual,
        ∀ spelling ∈ [rarity.name.toList, rarity.name.toList.take 1],
          spelling.all fun c => IsPlain c := by
      decide +kernel
    exact .inr (by simpa using plain rarity usual _ named)
  | colors named =>
    have plain (color : Color) : IsPlain color.letter.toLower := by
      cases color <;> decide
    rw [named]
    refine .inr fun c member => ?_
    obtain ⟨color, -, rfl⟩ := List.mem_map.mp member
    exact plain color
  | manaValue =>
    have plain : ∀ digit < 10, IsPlain (Nat.digitChar digit) := by
      decide
    rw [lower_numeral]
    refine .inr fun c member => ?_
    obtain ⟨digit, small, rfl⟩ := exists_digit_of_mem_numeral member
    exact plain digit small

theorem noSigma (writes : kind.Writes predicate value) : 'Σ' ∉ value := by
  intro sigma
  obtain ⟨-, canonical⟩ | plain := writes.canonical_or_plain
  · exact canonical.noSigma sigma
  · rcases sigma_mem_lowerAfter sigma false with small | final
    · exact (plain _ small).2 (by decide)
    · exact (plain _ final).2 (by decide)

end Writes

end ClauseKind

namespace Query

/-! ## Exclamation marks -/

/-- An exclamation mark where a clause is negated. -/
def mark (negated : Bool) : List Char :=
  if negated then ['!'] else []

theorem stripBang_of_unmarked {text : List Char} (unmarked : text.head? ≠ some '!') :
    stripBang text = (false, text) := by
  unfold stripBang
  split
  · exact absurd rfl unmarked
  · rfl

/-- A mark before a text is told from the text, whatever blanks are around it. -/
theorem stripBang_trim {before gap rest : List Char} (negated : Bool)
    (left : ∀ c ∈ before, isBlank c) (between : ∀ c ∈ gap, isBlank c)
    (unmarked : (trim rest).head? ≠ some '!') :
    stripBang (trim (before ++ (mark negated ++ (gap ++ rest)))) = (negated, trim rest) := by
  rw [trim_append_left left]
  cases negated with
  | false =>
    rw [mark, if_neg Bool.false_ne_true, List.nil_append, trim_append_left between,
      stripBang_of_unmarked unmarked]
  | true =>
    have single : Trimmed ['!'] := by decide
    rw [mark, if_pos rfl, trim_append single (List.cons_ne_nil _ _), List.singleton_append,
      stripBang, trimStart_trimEnd, trim_append_left between]

/-! ## Written clauses -/

variable {opening : String} {kind : ClauseKind} {predicate : Predicate}
  {before gap word space inside value after : List Char}

/-! ## Lower-case forms -/

/-- The exclamation mark outside, if there is one, is told from the text of the clause. -/
theorem parse_of_stripBang {clause text : List Char} {negated : Bool}
    (stripped : stripBang (trim (lower clause)) = (negated, text)) :
    parse clause =
      (prefixed? negated text).getD ⟨.anywhere (String.ofList (trim text)), negated⟩ := by
  rw [parse, lower_trim, stripped]

end Query

end DeckBuilder
