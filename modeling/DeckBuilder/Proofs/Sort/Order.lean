import DeckBuilder.Proofs.Lists
import DeckBuilder.Sort.Order
import Mathlib.Data.List.Nodup
import Mathlib.Order.Compare

/-! # Sorting by a specification

Codes are totally ordered, and an order that is read backwards or whose ties are broken by another
one is an order again. So the comparison of cards under any specification is a total preorder, and
what sorting makes of a list is told by it: the cards in order, and those that compare equal in the
order in which they came.
-/

namespace DeckBuilder

namespace OrderCode

instance transCmp : Std.TransCmp compare where
  eq_swap := compare_swap _ _
  isLE_trans := by
    intro first second third left right
    rw [Ordering.isLE_iff_ne_gt] at left right ⊢
    exact compare_ne_gt_trans left right

end OrderCode

/-- An order is an order in either direction. -/
theorem SortDirection.transCmp_apply {β : Type} {order : β → β → Ordering} [Std.TransCmp order]
    (direction : SortDirection) :
    Std.TransCmp fun first second => direction.apply (order first second) := by
  cases direction with
  | ascending => exact inferInstanceAs (Std.TransCmp order)
  | descending =>
    have backwards : (fun first second => (order first second).swap) =
        fun first second => order second first :=
      funext₂ fun _ _ => Std.OrientedCmp.eq_swap.symm
    change Std.TransCmp fun first second => (order first second).swap
    rw [backwards]
    exact Std.TransCmp.opposite

/-- Cards are preordered by the codes that they have. -/
theorem Card.transCmp_code (key : SortKey) (direction : SortDirection) :
    Std.TransCmp fun first second : Card =>
      OrderCode.compare (first.code key direction) (second.code key direction) where
  eq_swap := OrderCode.transCmp.eq_swap
  isLE_trans := OrderCode.transCmp.isLE_trans

instance SortEntry.transCmp (entry : SortEntry) : Std.TransCmp entry.compare :=
  have := Card.transCmp_code entry.key entry.direction
  entry.direction.transCmp_apply

namespace SortSpec

/-- Ties under the first entries are broken by the later ones. -/
theorem transCmp_foldr (entries : List SortEntry) :
    Std.TransCmp fun first second : Card =>
      entries.foldr (fun entry rest => (entry.compare first second).then rest) .eq := by
  induction entries with
  | nil => exact { eq_swap := rfl, isLE_trans := fun _ _ => rfl }
  | cons entry rest ih =>
    exact inferInstanceAs (Std.TransCmp (compareLex entry.compare _))

instance transCmp (spec : SortSpec) : Std.TransCmp spec.compare :=
  transCmp_foldr spec.enabled

/-- The first enabled entry that tells two cards apart decides. -/
theorem compare_eq_find? (spec : SortSpec) (first second : Card) :
    spec.compare first second =
      ((spec.enabled.map (·.compare first second)).find? (· != .eq)).getD .eq := by
  unfold compare
  induction spec.enabled with
  | nil => rfl
  | cons entry rest ih =>
    rw [List.foldr_cons, List.map_cons, List.find?_cons, ih]
    cases entry.compare first second <;> rfl

/-- The cards of a list, each with its place in it, are put in order: no card comes after one that
compares greater, and cards that compare equal keep the order of their places. -/
structure Arranges (spec : SortSpec) (cards : List Card) (placed : List (Card × Nat)) : Prop where
  perm : placed.Perm cards.zipIdx
  ordered : placed.Pairwise fun first second => spec.compare second.1 first.1 ≠ .lt
  stable : placed.Pairwise fun first second =>
    spec.compare first.1 second.1 = .eq → first.2 < second.2

section

variable (spec : SortSpec)

/-- The order by which cards are sorted. -/
def notAfter (first second : Card) : Bool :=
  spec.compare first second != .gt

theorem notAfter_eq_isLE (first second : Card) :
    spec.notAfter first second = (spec.compare first second).isLE := by
  unfold notAfter
  cases spec.compare first second <;> rfl

theorem notAfter_iff {first second : Card} :
    spec.notAfter first second ↔ spec.compare second first ≠ .lt := by
  rw [notAfter, bne_iff_ne, not_iff_not]
  exact Std.OrientedCmp.gt_iff_lt

theorem notAfter_trans (first second third : Card) (left : spec.notAfter first second)
    (right : spec.notAfter second third) : spec.notAfter first third := by
  rw [notAfter_eq_isLE] at left right ⊢
  exact Std.TransCmp.isLE_trans left right

theorem notAfter_total (first second : Card) :
    (spec.notAfter first second || spec.notAfter second first) = true := by
  rw [Bool.or_eq_true, notAfter_iff, notAfter_iff, ← not_and_or]
  rintro ⟨below, above⟩
  exact Std.OrientedCmp.not_lt_of_lt below above

variable {spec} {cards : List Card}

/-- A placed card comes before another one: it compares less, or they are tied and it has the
earlier place. -/
def Ahead (spec : SortSpec) (first second : Card × Nat) : Prop :=
  spec.compare first.1 second.1 = .lt ∨
    spec.compare first.1 second.1 = .eq ∧ first.2 < second.2

theorem Ahead.asymm {first second : Card × Nat} (ahead : spec.Ahead first second) :
    ¬ spec.Ahead second first := by
  rintro (behind | ⟨tied, later⟩)
  · rcases ahead with before | ⟨tied, -⟩
    · exact Std.OrientedCmp.not_lt_of_lt before behind
    · cases (Std.OrientedCmp.eq_symm tied).symm.trans behind
  · rcases ahead with before | ⟨-, earlier⟩
    · cases (Std.OrientedCmp.eq_symm tied).symm.trans before
    · exact Nat.lt_asymm earlier later

theorem Arranges.pairwise_ahead {placed : List (Card × Nat)}
    (arranges : spec.Arranges cards placed) : placed.Pairwise spec.Ahead := by
  refine (arranges.ordered.and arranges.stable).imp fun {first second} ⟨notBelow, before⟩ => ?_
  cases order : spec.compare first.1 second.1 with
  | lt => exact .inl order
  | eq => exact .inr ⟨order, before order⟩
  | gt => exact absurd (Std.OrientedCmp.lt_of_gt order) notBelow

/-- In an arrangement one card stands before another one exactly when it comes before it. -/
theorem Arranges.lt_iff_ahead {placed : List (Card × Nat)} (arranges : spec.Arranges cards placed)
    {i j : Nat} {first second : Card × Nat} (left : placed[i]? = some first)
    (right : placed[j]? = some second) : i < j ↔ spec.Ahead first second := by
  obtain ⟨leftBound, rfl⟩ := List.getElem?_eq_some_iff.mp left
  obtain ⟨rightBound, rfl⟩ := List.getElem?_eq_some_iff.mp right
  have ordered := List.pairwise_iff_getElem.mp arranges.pairwise_ahead
  refine ⟨ordered i j leftBound rightBound, fun ahead => ?_⟩
  rcases Nat.lt_trichotomy i j with before | rfl | after
  · exact before
  · exact absurd ahead ahead.asymm
  · exact absurd ahead (ordered j i rightBound leftBound after).asymm

/-- There is one way of putting the cards in order. -/
theorem Arranges.unique {placed other : List (Card × Nat)} (left : spec.Arranges cards placed)
    (right : spec.Arranges cards other) : placed = other := by
  refine List.Perm.eq_of_pairwise (fun first second _ _ ahead behind => ?_) left.pairwise_ahead
    right.pairwise_ahead (left.perm.trans right.perm.symm)
  exact absurd behind ahead.asymm

variable (spec cards) in
/-- Sorting cards together with their places puts them in order. -/
theorem arranges_mergeSort :
    spec.Arranges cards (cards.zipIdx.mergeSort (List.zipIdxLE spec.notAfter)) := by
  have perm := List.mergeSort_perm cards.zipIdx (List.zipIdxLE spec.notAfter)
  have sorted := List.pairwise_mergeSort (List.zipIdxLE_trans spec.notAfter_trans)
    (List.zipIdxLE_total spec.notAfter_total) cards.zipIdx
  have apart : ((cards.zipIdx.mergeSort (List.zipIdxLE spec.notAfter)).map Prod.snd).Nodup := by
    rw [(perm.map Prod.snd).nodup_iff, List.zipIdx_map_snd]
    exact List.nodup_range' 1
  refine ⟨perm, sorted.imp fun {first second} before => ?_,
    (sorted.and (List.pairwise_map.mp apart)).imp fun {first second} before tied => ?_⟩
  · refine spec.notAfter_iff.mp ?_
    by_contra after
    simp [List.zipIdxLE, after] at before
  · obtain ⟨before, apart⟩ := before
    have forth : spec.notAfter first.1 second.1 := by simp [notAfter, tied]
    have back : spec.notAfter second.1 first.1 := by
      simp [notAfter, Std.OrientedCmp.eq_symm tied]
    rw [List.zipIdxLE, if_pos forth, if_pos back, decide_eq_true_iff] at before
    exact Nat.lt_of_le_of_ne before apart

end

end SortSpec

theorem sortCards_eq_self {spec : SortSpec} (idle : spec.enabled = []) (cards : List Card) :
    sortCards cards spec = cards := by
  refine List.mergeSort_of_pairwise (List.pairwise_of_forall fun first second => ?_)
  rw [SortSpec.compare, idle]
  rfl

/-- The cards that are dropped have no part in the order of the others. -/
theorem sortCards_filter (cards : List Card) (spec : SortSpec) (keep : Card → Bool) :
    sortCards (cards.filter keep) spec = (sortCards cards spec).filter keep :=
  (Lists.mergeSort_filter spec.notAfter_trans spec.notAfter_total cards keep).symm

theorem sortCards_sortCards (cards : List Card) (spec : SortSpec) :
    sortCards (sortCards cards spec) spec = sortCards cards spec :=
  List.mergeSort_of_pairwise
    (List.pairwise_mergeSort spec.notAfter_trans spec.notAfter_total cards)

/-- **Every specification orders cards, and sorting by it is stable.** The comparison, which the
first enabled entry that tells two cards apart decides, is reflexive, turns around with its sides,
and being less and being equal are transitive. Of the arrangements of a list there is exactly one in
order that keeps the order of cards that compare equal, and sorting gives this one. When no entry is
enabled, sorting changes nothing. -/
theorem sortCards_arranges (spec : SortSpec) :
    (∀ card, spec.compare card card = .eq) ∧
      (∀ first second, spec.compare second first = (spec.compare first second).swap) ∧
      (∀ first second third, spec.compare first second = .lt → spec.compare second third = .lt →
        spec.compare first third = .lt) ∧
      (∀ first second third, spec.compare first second = .eq → spec.compare second third = .eq →
        spec.compare first third = .eq) ∧
      (∀ first second, spec.compare first second =
        ((spec.enabled.map (·.compare first second)).find? (· != .eq)).getD .eq) ∧
      (∀ cards, ∃ placed, spec.Arranges cards placed ∧ sortCards cards spec = placed.map Prod.fst ∧
        ∀ other, spec.Arranges cards other → other = placed) ∧
      (spec.enabled = [] → ∀ cards, sortCards cards spec = cards) := by
  refine ⟨fun _ => Std.ReflCmp.compare_self, fun _ _ => Std.OrientedCmp.eq_swap,
    fun _ _ _ => Std.TransCmp.lt_trans, fun _ _ _ => Std.TransCmp.eq_trans,
    spec.compare_eq_find?, fun cards => ?_, sortCards_eq_self⟩
  have arranges := spec.arranges_mergeSort cards
  exact ⟨_, arranges, List.mergeSort_zipIdx.symm, fun other inOrder => inOrder.unique arranges⟩

/-- A card of which nothing but the dates of its printings and its mana value is known. -/
def releasedCard (id : String) (manaValue : UInt32) (dates : List (Option Date)) : Card :=
  ⟨id, id, none, manaValue, [], "", .normal, [],
    dates.map fun date => ⟨id, "", "", none, .common, date, .empty, [], [], none, none, false⟩, []⟩

/-- The latest printing first, then the cheaper card; the name does not count. -/
def newestFirst : SortSpec :=
  ⟨[⟨.releasedAt, .descending, true⟩, ⟨.manaValue, .ascending, true⟩, ⟨.name, .ascending, false⟩]⟩

theorem sortCards_arranges_newestFirst :
    let reprinted := releasedCard "reprinted" 1 [Date.ofNumbers? 1993 8 5, Date.ofNumbers? 2020 6 1]
    let recent := releasedCard "recent" 1 [none, Date.ofNumbers? 2020 6 1]
    let also := releasedCard "also" 1 [Date.ofNumbers? 2020 6 1]
    let old := releasedCard "old" 0 [Date.ofNumbers? 1994 4 1]
    let undated := releasedCard "undated" 0 []
    (newestFirst.compare recent old = .lt ∧ newestFirst.compare old undated = .lt ∧
        newestFirst.compare recent undated = .lt) ∧
      (newestFirst.compare reprinted recent = .eq ∧ newestFirst.compare recent also = .eq ∧
        newestFirst.compare reprinted also = .eq) ∧
      (SortSpec.mk [⟨.name, .ascending, false⟩]).enabled = [] ∧
        sortCards [old, also] ⟨[⟨.name, .ascending, false⟩]⟩ = [old, also] := by
  intro reprinted recent also old undated
  obtain ⟨-, -, lessTrans, equalTrans, -⟩ := sortCards_arranges newestFirst
  obtain ⟨-, -, -, -, -, -, idle⟩ := sortCards_arranges ⟨[⟨.name, .ascending, false⟩]⟩
  have recentFirst : newestFirst.compare recent old = .lt := by decide +kernel
  have oldFirst : newestFirst.compare old undated = .lt := by decide +kernel
  have sameDay : newestFirst.compare reprinted recent = .eq := by decide +kernel
  have sameDayAgain : newestFirst.compare recent also = .eq := by decide +kernel
  exact ⟨⟨recentFirst, oldFirst, lessTrans _ _ _ recentFirst oldFirst⟩,
    ⟨sameDay, sameDayAgain, equalTrans _ _ _ sameDay sameDayAgain⟩, rfl, idle rfl _⟩

end DeckBuilder
