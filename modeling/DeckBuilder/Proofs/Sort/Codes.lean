import DeckBuilder.OrderCode
import DeckBuilder.Proofs.Lists

/-! # Sorting by codes

Sorting values by their codes keeps the order of values with the same code. So the outcome is told
by the values of each code, and it does not matter whether values are dropped, or some of them
sorted, before.
-/

namespace DeckBuilder.OrderCode

theorem Before.irrefl (code : List Nat) : ¬ Before code code :=
  fun before => before.ne rfl

theorem not_before_nil (code : List Nat) : ¬ Before code [] := by
  cases code <;> simp [Before, compare]

theorem nil_before_cons (value : Nat) (code : List Nat) : Before [] (value :: code) :=
  rfl

theorem before_cons_cons {first second : Nat} {left right : List Nat} :
    Before (first :: left) (second :: right) ↔
      first < second ∨ first = second ∧ Before left right := by
  rw [Before, compare]
  split
  · simp [*]
  · split
    · simp only [reduceCtorEq, false_iff]
      omega
    · have same : first = second := by omega
      simp [same, Before]

/-- Between a code and the one with a number more are the codes that go on with a lower number. -/
theorem before_and_before_append_iff {base between : List Nat} {last : Nat} :
    Before base between ∧ Before between (base ++ [last]) ↔
      ∃ next rest, next < last ∧ between = base ++ next :: rest := by
  induction base generalizing between with
  | nil =>
    cases between with
    | nil => simp [not_before_nil]
    | cons next rest => simp [nil_before_cons, before_cons_cons, not_before_nil]
  | cons value base ih =>
    cases between with
    | nil => simp [not_before_nil]
    | cons other between =>
      rw [List.cons_append, before_cons_cons, before_cons_cons]
      constructor
      · rintro ⟨below | ⟨rfl, below⟩, above | ⟨same, above⟩⟩
        · exact absurd below (Nat.lt_asymm above)
        · exact absurd below (same ▸ Nat.lt_irrefl _)
        · exact absurd above (Nat.lt_irrefl _)
        · obtain ⟨next, rest, lower, rfl⟩ := ih.mp ⟨below, above⟩
          exact ⟨next, rest, lower, rfl⟩
      · rintro ⟨next, rest, lower, split⟩
        obtain ⟨rfl, inner⟩ := List.cons.inj split
        obtain ⟨below, above⟩ := ih.mpr ⟨next, rest, lower, inner⟩
        exact ⟨.inr ⟨rfl, below⟩, .inr ⟨rfl, above⟩⟩

/-- A code comes before those that go on after it. -/
theorem before_append_cons (base : List Nat) (next : Nat) (rest : List Nat) :
    Before base (base ++ next :: rest) :=
  (before_and_before_append_iff.mpr ⟨next, rest, Nat.lt_succ_self next, rfl⟩).1

/-! ## Comparing part by part -/

theorem compare_cons_cons (a b : Nat) (left right : List Nat) :
    compare (a :: left) (b :: right) = (Ord.compare a b).then (compare left right) := by
  rw [compare, Nat.compare_eq_ite_lt]
  split
  · rfl
  · split <;> rfl

theorem compare_append_left (base left right : List Nat) :
    compare (base ++ left) (base ++ right) = compare left right := by
  induction base with
  | nil => rfl
  | cons value base ih => simp [compare, ih]

/-- After parts of one length the rest decides only where they are the same. -/
theorem compare_append {first second : List Nat} (sameSize : first.length = second.length)
    (left right : List Nat) :
    compare (first ++ left) (second ++ right) =
      (compare first second).then (compare left right) := by
  induction first generalizing second with
  | nil =>
    obtain rfl := List.length_eq_zero_iff.mp sameSize.symm
    rfl
  | cons a first ih =>
    cases second with
    | nil => simp at sameSize
    | cons b second =>
      rw [List.cons_append, List.cons_append, compare_cons_cons, compare_cons_cons,
        ih (Nat.succ.inj sameSize), Ordering.then_assoc]

theorem compare_cons_eq_compare_cons_iff {a b : Nat} {left right otherLeft otherRight : List Nat} :
    compare (a :: left) (b :: right) = compare (a :: otherLeft) (b :: otherRight) ↔
      (a = b → compare left right = compare otherLeft otherRight) := by
  rw [compare_cons_cons, compare_cons_cons]
  rcases Nat.lt_trichotomy a b with less | rfl | greater
  · simp [Nat.compare_eq_lt.mpr less, Nat.ne_of_lt less]
  · simp
  · simp [Nat.compare_eq_gt.mpr greater, Nat.ne_of_gt greater]

/-- The order of the first two numbers matters only when they are compared the opposite way. -/
theorem compare_cons_cons_eq_swapped_iff {a b c d : Nat} {left right : List Nat} :
    compare (a :: b :: left) (c :: d :: right) = compare (b :: a :: left) (d :: c :: right) ↔
      ¬ (a < c ∧ d < b ∨ c < a ∧ b < d) := by
  rw [← Nat.compare_eq_lt (a := a), ← Nat.compare_eq_gt (a := b), ← Nat.compare_eq_gt (a := a),
    ← Nat.compare_eq_lt (a := b)]
  simp only [compare_cons_cons]
  cases Ord.compare a c <;> cases Ord.compare b d <;> simp

/-- Codes are compared like lists of values with keys. -/
theorem compare_map {β : Type} (key : β → Nat) (first second : List β) :
    compare (first.map key) (second.map key) = first.compareLex (compareOn key) second := by
  induction first generalizing second with
  | nil => cases second <;> rfl
  | cons value first ih =>
    cases second with
    | nil => rfl
    | cons other second =>
      rw [List.map_cons, List.map_cons, compare_cons_cons, List.compareLex_cons_cons, ih]
      rfl

/-! ## Sorting -/

variable {β : Type} (code : β → List Nat)

/-- The order of values by their codes. -/
def notAfter (first second : β) : Bool :=
  compare (code first) (code second) != .gt

theorem notAfter_iff_not_before {a b : β} : notAfter code a b ↔ ¬ Before (code b) (code a) := by
  rw [notAfter, bne_iff_ne, Before, compare_swap (code a) (code b)]
  cases compare (code a) (code b) <;> decide

theorem notAfter_trans (a b c : β) (left : notAfter code a b) (right : notAfter code b c) :
    notAfter code a c :=
  bne_iff_ne.mpr (compare_ne_gt_trans (bne_iff_ne.mp left) (bne_iff_ne.mp right))

theorem notAfter_total (a b : β) : (notAfter code a b || notAfter code b a) = true := by
  rw [Bool.or_eq_true, notAfter, notAfter, bne_iff_ne, bne_iff_ne]
  exact compare_ne_gt_total _ _

theorem code_eq_of_notAfter (a b : β) (left : notAfter code a b) (right : notAfter code b a) :
    code a = code b :=
  eq_of_compare_ne_gt (bne_iff_ne.mp left) (bne_iff_ne.mp right)

theorem pairwise_mergeSort (values : List β) :
    (values.mergeSort (notAfter code)).Pairwise (notAfter code · ·) :=
  List.pairwise_mergeSort (notAfter_trans code) (notAfter_total code) values

/-- Values with one code keep their order. -/
theorem filter_mergeSort (values : List β) (wanted : List Nat) (keep : β → Bool) :
    (values.mergeSort (notAfter code)).filter (fun value => keep value && code value == wanted) =
      values.filter fun value => keep value && code value == wanted := by
  refine Lists.filter_mergeSort (notAfter_trans code) (notAfter_total code) values ?_
  intro a b left right
  rw [Bool.and_eq_true, beq_iff_eq] at left right
  rw [notAfter, left.2, right.2, compare_self]
  rfl

theorem filter_code_mergeSort (values : List β) (wanted : List Nat) :
    (values.mergeSort (notAfter code)).filter (code · == wanted) =
      values.filter (code · == wanted) := by
  simpa using filter_mergeSort code values wanted fun _ => true

variable {code} {first second : List β}

/-- What is in order is told by the values of each code. -/
theorem eq_mergeSort (ordered : first.Pairwise (notAfter code · ·))
    (same : ∀ wanted, first.filter (code · == wanted) = second.filter (code · == wanted)) :
    first = second.mergeSort (notAfter code) := by
  refine Lists.eq_of_filter_tied (notAfter_total code) ordered (pairwise_mergeSort code second)
    fun value => ?_
  have tied_eq (other : β) :
      Lists.tied (notAfter code) value other = (code other == code value) := by
    rw [Bool.eq_iff_iff, Lists.tied, Bool.and_eq_true, beq_iff_eq]
    constructor
    · rintro ⟨left, right⟩
      exact (code_eq_of_notAfter code value other left right).symm
    · intro same
      simp [notAfter, same, compare_self]
  rw [List.filter_congr fun other _ => tied_eq other, same, ← filter_code_mergeSort]
  exact List.filter_congr fun other _ => (tied_eq other).symm

theorem mergeSort_congr
    (same : ∀ wanted, first.filter (code · == wanted) = second.filter (code · == wanted)) :
    first.mergeSort (notAfter code) = second.mergeSort (notAfter code) := by
  refine eq_mergeSort (pairwise_mergeSort code first) fun wanted => ?_
  rw [filter_code_mergeSort, same]

/-- Values can be dropped before sorting. -/
theorem mergeSort_filter (values : List β) (keep : β → Bool) :
    (values.mergeSort (notAfter code)).filter keep =
      (values.filter keep).mergeSort (notAfter code) :=
  Lists.mergeSort_filter (notAfter_trans code) (notAfter_total code) values keep

/-- A part that comes first can be sorted before. -/
theorem mergeSort_append (first second : List β) :
    (first.mergeSort (notAfter code) ++ second).mergeSort (notAfter code) =
      (first ++ second).mergeSort (notAfter code) := by
  refine mergeSort_congr fun wanted => ?_
  rw [List.filter_append, List.filter_append, filter_code_mergeSort]

end DeckBuilder.OrderCode
