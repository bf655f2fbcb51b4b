import DeckBuilder.Proofs.Sort.Codes
import DeckBuilder.Sort.Order

/-! # The order of colors

An identity lists its colors in any order and is compared sorted. Of two sorted lists of one size
the one comes first that has more of the first color of which they do not have equally many. So two
orders of the colors compare identities alike unless they swap colors of which one identity has more
and the other less, which is what the letters of the colors do with black and red.
-/

namespace DeckBuilder

namespace OrderCode

/-! ## Sorted lists by their counts -/

section

variable {β : Type} {key : β → Nat} {values : List β}

/-- The values of a list in its order, each as often as it is counted. -/
def spread (values : List β) (copies : β → Nat) : List β :=
  values.flatMap fun value => List.replicate (copies value) value

theorem spread_cons (value : β) (values : List β) (copies : β → Nat) :
    spread (value :: values) copies =
      List.replicate (copies value) value ++ spread values copies :=
  rfl

theorem mem_of_mem_spread {copies : β → Nat} {value : β} (member : value ∈ spread values copies) :
    value ∈ values := by
  obtain ⟨other, isOther, copy⟩ := List.mem_flatMap.mp member
  exact List.eq_of_mem_replicate copy ▸ isOther

theorem count_spread [BEq β] [LawfulBEq β] (distinct : values.Nodup) {copies : β → Nat} {value : β}
    (member : value ∈ values) : (spread values copies).count value = copies value := by
  induction values with
  | nil => cases member
  | cons first rest ih =>
    obtain ⟨fresh, others⟩ := List.nodup_cons.mp distinct
    rw [spread_cons, List.count_append, List.count_replicate]
    rcases List.mem_cons.mp member with rfl | later
    · have none : value ∉ spread rest copies := fun copy => fresh (mem_of_mem_spread copy)
      rw [if_pos (beq_self_eq_true value), List.count_eq_zero.mpr none, Nat.add_zero]
    · have apart : first ≠ value := fun same => fresh (same ▸ later)
      rw [if_neg (mt beq_iff_eq.mp apart), Nat.zero_add, ih others later]

theorem pairwise_spread (ordered : values.Pairwise (key · < key ·)) (copies : β → Nat) :
    (spread values copies).Pairwise (key · ≤ key ·) := by
  refine List.pairwise_flatMap.mpr ⟨fun value _ => ?_,
    ordered.imp fun before other copy another alsoCopy => ?_⟩
  · exact List.pairwise_replicate.mpr (.inr (Nat.le_refl _))
  · rw [List.eq_of_mem_replicate copy, List.eq_of_mem_replicate alsoCopy]
    exact Nat.le_of_lt before

/-- Of two lists of one size the one with fewer copies of the first value comes after the other. -/
theorem compare_spread_of_fewer {value : β} (lowest : ∀ other ∈ values, key value < key other)
    {first second : β → Nat} (fewer : first value < second value)
    (sameSize : (spread (value :: values) first).length =
      (spread (value :: values) second).length) :
    compare ((spread (value :: values) first).map key)
      ((spread (value :: values) second).map key) = .gt := by
  obtain ⟨more, copies⟩ : ∃ more, second value = first value + (more + 1) :=
    ⟨second value - first value - 1, by omega⟩
  rw [spread_cons, spread_cons, copies, List.replicate_add, List.append_assoc] at sameSize ⊢
  rw [List.map_append, List.map_append, compare_append_left]
  -- The copies that the first list lacks stand against higher values of it.
  cases others : spread values first with
  | nil =>
    rw [others] at sameSize
    simp at sameSize
  | cons other rest =>
    have higher : key value < key other :=
      lowest other (mem_of_mem_spread (others ▸ List.mem_cons_self))
    rw [List.replicate_succ, List.cons_append, List.map_cons, List.map_cons, compare,
      if_neg (Nat.lt_asymm higher), if_pos higher]

/-- **Sorted lists of one size are compared by how often they have each value**: the one with more
copies of the first value of which they do not have equally many comes first. -/
theorem compare_spread (ordered : values.Pairwise (key · < key ·)) {first second : β → Nat}
    (sameSize : (spread values first).length = (spread values second).length) :
    compare ((spread values first).map key) ((spread values second).map key) =
      compare (values.map second) (values.map first) := by
  induction values with
  | nil => rfl
  | cons value rest ih =>
    obtain ⟨lowest, others⟩ := List.pairwise_cons.mp ordered
    rw [List.map_cons, List.map_cons, compare_cons_cons]
    rcases Nat.lt_trichotomy (first value) (second value) with fewer | same | more
    · rw [compare_spread_of_fewer lowest fewer sameSize, Nat.compare_eq_gt.mpr fewer]
      rfl
    · rw [spread_cons, spread_cons, same, List.length_append, List.length_append,
        Nat.add_left_cancel_iff] at sameSize
      rw [spread_cons, spread_cons, same, List.map_append, List.map_append, compare_append_left,
        Nat.compare_eq_eq.mpr rfl]
      exact ih others sameSize
    · rw [compare_swap, compare_spread_of_fewer lowest more sameSize.symm,
        Nat.compare_eq_lt.mpr more]
      rfl

end

end OrderCode

/-! ## Identities in an order of colors -/

namespace Color

/-- The color wheel, with colorless before it. -/
def wheel : List Color :=
  [colorless, white, blue, black, red, green]

/-- The order of the letters by which identities are compared: that of the wheel, but with red
before black. -/
def letterOrder : List Color :=
  [colorless, white, blue, red, black, green]

/-- The order has every color once. -/
structure IsOrder (order : List Color) : Prop where
  complete : ∀ color, color ∈ order
  distinct : order.Nodup

theorem isOrder_wheel : IsOrder wheel :=
  ⟨fun color => by cases color <;> decide, by decide⟩

theorem isOrder_letterOrder : IsOrder letterOrder :=
  ⟨fun color => by cases color <;> decide, by decide⟩

/-- An identity, sorted in an order of colors. -/
def arranged (order identity : List Color) : List Color :=
  identity.mergeSort fun first second => order.idxOf first ≤ order.idxOf second

/-- The lexicographic comparison of two identities that are sorted in an order of colors. -/
def compareAlong (order first second : List Color) : Ordering :=
  (arranged order first).compareLex (compareOn order.idxOf) (arranged order second)

theorem arranged_perm (order identity : List Color) : (arranged order identity).Perm identity :=
  List.mergeSort_perm identity _

theorem pairwise_arranged (order identity : List Color) :
    (arranged order identity).Pairwise (order.idxOf · ≤ order.idxOf ·) := by
  refine (List.pairwise_mergeSort (fun a b c => ?_) (fun a b => ?_) identity).imp of_decide_eq_true
  · simp only [decide_eq_true_iff]
    exact Nat.le_trans
  · simpa using Nat.le_total _ _

theorem compareAlong_eq (order first second : List Color) : compareAlong order first second =
    OrderCode.compare ((arranged order first).map order.idxOf)
      ((arranged order second).map order.idxOf) :=
  (OrderCode.compare_map _ _ _).symm

namespace IsOrder

variable {order identity first second : List Color} (isOrder : IsOrder order)

include isOrder

theorem idxOf_injective : Function.Injective order.idxOf :=
  fun _ _ same => (List.idxOf_inj (isOrder.complete _)).mp same

theorem pairwise_idxOf : order.Pairwise (order.idxOf · < order.idxOf ·) := by
  rw [List.pairwise_iff_getElem]
  intro i j left right before
  rwa [isOrder.distinct.idxOf_getElem i left, isOrder.distinct.idxOf_getElem j right]

/-- What is sorted has the colors in their order, each as often as the identity has it. -/
theorem arranged_eq_spread (identity : List Color) :
    arranged order identity = OrderCode.spread order identity.count := by
  have same : (arranged order identity).Perm (OrderCode.spread order identity.count) := by
    refine (arranged_perm order identity).trans (List.perm_iff_count.mpr fun color => ?_)
    rw [OrderCode.count_spread isOrder.distinct (isOrder.complete color)]
  refine same.eq_of_pairwise (fun a b _ _ left right => ?_) (pairwise_arranged order identity)
    (OrderCode.pairwise_spread isOrder.pairwise_idxOf _)
  exact isOrder.idxOf_injective (Nat.le_antisymm left right)

/-- The order of the colors in an identity plays no part. -/
theorem arranged_eq_of_perm (same : first.Perm second) :
    arranged order first = arranged order second := by
  rw [isOrder.arranged_eq_spread, isOrder.arranged_eq_spread]
  exact congrArg _ (funext fun color => same.count_eq color)

/-- Only identities with the same colors compare as equal. -/
theorem perm_of_compareAlong_eq (tied : compareAlong order first second = .eq) :
    first.Perm second := by
  rw [compareAlong_eq] at tied
  have same : arranged order first = arranged order second :=
    List.map_injective_iff.mpr isOrder.idxOf_injective (OrderCode.eq_of_compare_eq tied)
  have right := arranged_perm order second
  rw [← same] at right
  exact (arranged_perm order first).symm.trans right

/-- Identities of one size are compared by how often they have each color. -/
theorem compareAlong_eq_compare_count (sameSize : first.length = second.length) :
    compareAlong order first second =
      OrderCode.compare (order.map second.count) (order.map first.count) := by
  rw [compareAlong_eq, isOrder.arranged_eq_spread, isOrder.arranged_eq_spread]
  refine OrderCode.compare_spread isOrder.pairwise_idxOf ?_
  rw [← isOrder.arranged_eq_spread, ← isOrder.arranged_eq_spread,
    (arranged_perm order first).length_eq, (arranged_perm order second).length_eq, sameSize]

end IsOrder

/-- The identities have equally many symbols of all colors before black and red, and one has more
black and less red than the other. -/
def TradesBlackForRed (first second : List Color) : Prop :=
  first.count colorless = second.count colorless ∧ first.count white = second.count white ∧
    first.count blue = second.count blue ∧
      (first.count black < second.count black ∧ second.count red < first.count red ∨
        second.count black < first.count black ∧ first.count red < second.count red)

instance (first second : List Color) : Decidable (TradesBlackForRed first second) :=
  inferInstanceAs (Decidable (_ ∧ _))

/-- The letters compare identities as the wheel does unless black is traded for red. -/
theorem compareAlong_letterOrder_eq_wheel_iff {first second : List Color}
    (sameSize : first.length = second.length) :
    compareAlong letterOrder first second = compareAlong wheel first second ↔
      ¬ TradesBlackForRed first second := by
  rw [isOrder_letterOrder.compareAlong_eq_compare_count sameSize,
    isOrder_wheel.compareAlong_eq_compare_count sameSize]
  simp only [letterOrder, wheel, List.map_cons, OrderCode.compare_cons_eq_compare_cons_iff,
    OrderCode.compare_cons_cons_eq_swapped_iff, TradesBlackForRed]
  omega

end Color

/-! ## The comparison of cards -/

namespace Card

/-- The letters of an identity are those of its sorted colors. -/
theorem wheelLetters_eq (card : Card) : card.wheelLetters =
    (Color.arranged Color.letterOrder card.colorIdentity).map fun color =>
      color.wheelLetter.toNat := by
  refine (List.map_mergeSort fun first _ second _ => ?_).symm
  cases first <;> cases second <;> rfl

end Card

/-- Between cards of one kind and with identities of one size the sorted identities decide, and then
basic lands come first. -/
theorem compareByColor_eq {first second : Card} (sameKind : first.isLand = second.isLand)
    (sameSize : first.colorIdentity.length = second.colorIdentity.length) :
    compareByColor first second =
      (Color.compareAlong Color.letterOrder first.colorIdentity second.colorIdentity).then
        (OrderCode.compare [(!first.isBasicLand).toNat] [(!second.isBasicLand).toNat]) := by
  have letters : compareOn (fun color : Color => color.wheelLetter.toNat) =
      compareOn Color.letterOrder.idxOf := by
    funext left right
    cases left <;> cases right <;> rfl
  have lengths : first.wheelLetters.length = second.wheelLetters.length := by
    simp [Card.wheelLetters, sameSize]
  rw [compareByColor, Card.colorCode, Card.colorCode, sameKind, sameSize, List.append_assoc,
    List.append_assoc, OrderCode.compare_append_left, OrderCode.compare_append lengths,
    Card.wheelLetters_eq, Card.wheelLetters_eq, OrderCode.compare_map, letters]
  rfl

theorem compareByColor_of_not_perm {first second : Card} (sameKind : first.isLand = second.isLand)
    (sameSize : first.colorIdentity.length = second.colorIdentity.length)
    (apart : ¬ first.colorIdentity.Perm second.colorIdentity) :
    compareByColor first second =
      Color.compareAlong Color.letterOrder first.colorIdentity second.colorIdentity := by
  rw [compareByColor_eq sameKind sameSize]
  cases order : Color.compareAlong Color.letterOrder first.colorIdentity second.colorIdentity with
  | lt | gt => rfl
  | eq => exact absurd (Color.isOrder_letterOrder.perm_of_compareAlong_eq order) apart

/-- **Colors are compared along the wheel, but with red before black.** Between two cards of one
kind with different identities of one size, the lexicographic comparison of the sorted identities
decides, however the identities list their colors. It is that along the color wheel exactly when the
identities do not trade black for red. -/
theorem compareByColor_eq_wheel_iff {first second : Card} (sameKind : first.isLand = second.isLand)
    (sameSize : first.colorIdentity.length = second.colorIdentity.length)
    (apart : ¬ first.colorIdentity.Perm second.colorIdentity) :
    compareByColor first second =
        Color.compareAlong Color.letterOrder first.colorIdentity second.colorIdentity ∧
      (∀ left right : List Color, left.Perm first.colorIdentity →
        right.Perm second.colorIdentity →
          compareByColor { first with colorIdentity := left }
            { second with colorIdentity := right } = compareByColor first second) ∧
      (compareByColor first second =
          Color.compareAlong Color.wheel first.colorIdentity second.colorIdentity ↔
        ¬ Color.TradesBlackForRed first.colorIdentity second.colorIdentity) := by
  have decided := compareByColor_of_not_perm sameKind sameSize apart
  refine ⟨decided, fun left right sameFirst sameSecond => ?_, ?_⟩
  · have relisted : ¬ left.Perm right :=
      fun perm => apart (sameFirst.symm.trans (perm.trans sameSecond))
    have otherDecided : compareByColor { first with colorIdentity := left }
        { second with colorIdentity := right } = Color.compareAlong Color.letterOrder left right :=
      compareByColor_of_not_perm sameKind
        (sameFirst.length_eq.trans (sameSize.trans sameSecond.length_eq.symm)) relisted
    rw [otherDecided, decided, Color.compareAlong, Color.compareAlong,
      Color.isOrder_letterOrder.arranged_eq_of_perm sameFirst,
      Color.isOrder_letterOrder.arranged_eq_of_perm sameSecond]
  · rw [decided]
    exact Color.compareAlong_letterOrder_eq_wheel_iff sameSize

/-- A card of which nothing but the colors is known. -/
def coloredCard (id : String) (colorIdentity : List Color) : Card :=
  ⟨id, id, none, 0, colorIdentity, "", .normal, [], [], []⟩

/-- Black and red against blue and red: blue decides, as on the wheel. -/
theorem compareByColor_eq_wheel_iff_blueAndRed :
    let rakdos := coloredCard "rakdos" [.black, .red]
    let izzet := coloredCard "izzet" [.red, .blue]
    (rakdos.isLand = izzet.isLand ∧ rakdos.colorIdentity.length = izzet.colorIdentity.length ∧
        ¬ rakdos.colorIdentity.Perm izzet.colorIdentity) ∧
      compareByColor rakdos izzet = .gt ∧
      compareByColor (coloredCard "rakdos" [.red, .black]) (coloredCard "izzet" [.blue, .red]) =
        .gt ∧
      Color.compareAlong Color.wheel rakdos.colorIdentity izzet.colorIdentity = .gt := by
  intro rakdos izzet
  have sameKind : rakdos.isLand = izzet.isLand := rfl
  have sameSize : rakdos.colorIdentity.length = izzet.colorIdentity.length := rfl
  have apart : ¬ rakdos.colorIdentity.Perm izzet.colorIdentity := by decide
  obtain ⟨decided, unlisted, onWheel⟩ := compareByColor_eq_wheel_iff sameKind sameSize apart
  have after : compareByColor rakdos izzet = .gt := by
    rw [decided, Color.isOrder_letterOrder.compareAlong_eq_compare_count sameSize]
    decide
  refine ⟨⟨sameKind, sameSize, apart⟩, after, ?_, ?_⟩
  · exact (unlisted [.red, .black] [.blue, .red] (by decide) (by decide)).trans after
  · exact (onWheel.mpr (by decide)).symm.trans after

/-- A red card comes before a black one, against the wheel. -/
theorem compareByColor_ne_wheel_blackAndRed :
    let black := coloredCard "black" [.black]
    let red := coloredCard "red" [.red]
    black.isLand = red.isLand ∧ black.colorIdentity.length = red.colorIdentity.length ∧
      ¬ black.colorIdentity.Perm red.colorIdentity ∧ compareByColor black red = .gt ∧
      Color.compareAlong Color.wheel black.colorIdentity red.colorIdentity = .lt := by
  decide +kernel

end DeckBuilder
