/-! # Order codes

Every order of this library is read off a code, a list of numbers, and codes are compared
lexicographically. A type whose values have pairwise different codes is thereby totally ordered,
and one small theory of lists serves texts, enumerations, dates and the sort keys of cards alike.
-/

namespace DeckBuilder

namespace OrderCode

/-- Lexicographic comparison; a code comes before everything that extends it. -/
def compare : List Nat → List Nat → Ordering
  | [], [] => .eq
  | [], _ :: _ => .lt
  | _ :: _, [] => .gt
  | a :: as, b :: bs => if a < b then .lt else if b < a then .gt else compare as bs

theorem compare_self (code : List Nat) : compare code code = .eq := by
  induction code with
  | nil => rfl
  | cons a as ih => simp [compare, ih]

/-- Only equal codes compare as equal. -/
theorem eq_of_compare_eq {first second : List Nat} (same : compare first second = .eq) :
    first = second := by
  induction first generalizing second with
  | nil => cases second <;> simp_all [compare]
  | cons a as ih =>
    cases second with
    | nil => simp [compare] at same
    | cons b bs =>
      simp only [compare] at same
      split at same
      · exact absurd same (by decide)
      · split at same
        · exact absurd same (by decide)
        · have heads : a = b := by omega
          rw [heads, ih same]

theorem compare_swap (first second : List Nat) :
    compare second first = (compare first second).swap := by
  induction first generalizing second with
  | nil => cases second <;> rfl
  | cons a as ih =>
    cases second with
    | nil => rfl
    | cons b bs =>
      simp only [compare]
      by_cases below : a < b
      · simp [below, Nat.lt_asymm below]
      · by_cases above : b < a
        · simp [below, above]
        · simp [below, above, ih]

theorem compare_lt_trans {first second third : List Nat}
    (left : compare first second = .lt) (right : compare second third = .lt) :
    compare first third = .lt := by
  induction first generalizing second third with
  | nil =>
    cases third with
    | nil => cases second <;> simp_all [compare]
    | cons _ _ => rfl
  | cons a as ih =>
    cases second with
    | nil => simp [compare] at left
    | cons b bs =>
      cases third with
      | nil => simp [compare] at right
      | cons c cs =>
        simp only [compare] at left right ⊢
        by_cases ab : a < b
        · by_cases bc : b < c
          · rw [if_pos (by omega)]
          · by_cases cb : c < b
            · simp [bc, cb] at right
            · rw [if_pos (by omega)]
        · by_cases ba : b < a
          · simp [ab, ba] at left
          · have heads : a = b := by omega
            subst heads
            by_cases bc : a < c
            · rw [if_pos bc]
            · by_cases cb : c < a
              · simp [bc, cb] at right
              · simp only [ab, if_false, bc, cb] at left right ⊢
                exact ih left right

theorem compare_ne_gt_total (first second : List Nat) :
    compare first second ≠ .gt ∨ compare second first ≠ .gt := by
  rw [compare_swap first second]
  cases compare first second <;> decide

theorem compare_ne_gt_trans {first second third : List Nat}
    (left : compare first second ≠ .gt) (right : compare second third ≠ .gt) :
    compare first third ≠ .gt := by
  intro above
  have below : compare third first = .lt := by rw [compare_swap, above]; rfl
  cases order : compare second third with
  | gt => exact right order
  | eq =>
    rw [eq_of_compare_eq order] at left
    exact left above
  | lt =>
    have under := compare_lt_trans order below
    exact left (by rw [compare_swap, under]; rfl)

theorem eq_of_compare_ne_gt {first second : List Nat}
    (left : compare first second ≠ .gt) (right : compare second first ≠ .gt) : first = second := by
  rw [compare_swap first second] at right
  cases order : compare first second with
  | gt => exact absurd order left
  | eq => exact eq_of_compare_eq order
  | lt => exact absurd (congrArg Ordering.swap order) right

/-- The strict order of codes. -/
def Before (first second : List Nat) : Prop :=
  compare first second = .lt

instance (first second : List Nat) : Decidable (Before first second) :=
  inferInstanceAs (Decidable (_ = _))

theorem Before.trans {first second third : List Nat}
    (left : Before first second) (right : Before second third) : Before first third :=
  compare_lt_trans left right

theorem Before.ne {first second : List Nat} (before : Before first second) : first ≠ second := by
  intro same
  subst same
  simp [Before, compare_self] at before

theorem Before.asymm {first second : List Nat} (before : Before first second) :
    ¬ Before second first :=
  fun after => (before.trans after).ne rfl

end OrderCode

/-- A type ordered by the codes of its values, which are pairwise different. -/
class OrderKey (κ : Type) where
  code : κ → List Nat
  code_injective : ∀ {first second : κ}, code first = code second → first = second

namespace OrderKey

variable {κ : Type} [OrderKey κ]

/-- The comparison of keys by their codes. -/
def compare (first second : κ) : Ordering :=
  OrderCode.compare (code first) (code second)

/-- The strict order of keys. -/
def Before (first second : κ) : Prop :=
  OrderCode.Before (code first) (code second)

theorem code_inj {first second : κ} : code first = code second ↔ first = second :=
  ⟨code_injective, fun same => same ▸ rfl⟩

end OrderKey

/-- Texts are ordered by their code points, character by character. -/
instance : OrderKey String where
  code text := text.toList.map Char.toNat
  code_injective := by
    intro first second same
    have chars : first.toList = second.toList :=
      List.map_inj_right (fun _ _ => Char.toNat_inj.1) |>.1 same
    exact String.toList_inj.1 chars

end DeckBuilder
