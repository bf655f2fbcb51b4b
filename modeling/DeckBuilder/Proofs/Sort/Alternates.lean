import DeckBuilder.Proofs.Sort.Codes
import DeckBuilder.Proofs.Sort.Order

/-! # Alternate arts in the order of names

The alternate art of a card has the card's name with the opening `A-`, and it is sorted by the name
of the card with a `2` at its end. So it comes after the card, but not right after it: a longer name
that goes on with a character before `2`, such as a blank, a comma or an apostrophe, comes between
the two, and names that are sorted by the same text may.
-/

namespace DeckBuilder

/-! ## The names that cards are sorted by -/

/-- The name of the alternate art of a card. -/
def alternateName (name : String) : String :=
  "A-" ++ name

/-- The name is that of an alternate art. -/
def IsAlternate (name : String) : Prop :=
  ∃ base, name = alternateName base

theorem toList_alternateName (name : String) :
    (alternateName name).toList = 'A' :: '-' :: name.toList := by
  simp [alternateName]

theorem sortName_alternateName (name : String) : sortName (alternateName name) = name ++ "2" := by
  rw [sortName, toList_alternateName]
  simp

theorem sortName_of_not_isAlternate {name : String} (plain : ¬ IsAlternate name) :
    sortName name = name := by
  unfold sortName
  split
  · rename_i base opening
    refine absurd ⟨String.ofList base, ?_⟩ plain
    rw [← String.toList_inj, toList_alternateName, opening, String.toList_ofList]
  · rfl

/-- No name is sorted by the text by which its alternate is. -/
theorem sortName_ne_sortName_alternateName (name : String) :
    sortName name ≠ sortName (alternateName name) := by
  intro same
  have lengths := congrArg (fun text : String => text.toList.length) same
  by_cases isAlternate : IsAlternate name
  · obtain ⟨base, rfl⟩ := isAlternate
    simp [sortName_alternateName, toList_alternateName] at lengths
  · simp [sortName_alternateName, sortName_of_not_isAlternate isAlternate] at lengths

theorem code_sortName_alternateName (name : String) :
    OrderKey.code (sortName (alternateName name)) = OrderKey.code name ++ ['2'.toNat] := by
  rw [sortName_alternateName]
  simp [OrderKey.code]

/-- A name that is no alternate itself is sorted before its alternate. -/
theorem sortName_before_alternateName {base : String} (plain : ¬ IsAlternate base) :
    OrderKey.Before (sortName base) (sortName (alternateName base)) := by
  rw [OrderKey.Before, code_sortName_alternateName, sortName_of_not_isAlternate plain]
  exact OrderCode.before_append_cons _ _ _

/-- The name is sorted between a name and its alternate. -/
def SortsBetween (base name : String) : Prop :=
  OrderKey.Before (sortName base) (sortName name) ∧
    OrderKey.Before (sortName name) (sortName (alternateName base))

instance (base name : String) : Decidable (SortsBetween base name) :=
  inferInstanceAs (Decidable (OrderCode.Before _ _ ∧ OrderCode.Before _ _))

/-- The names between a name and its alternate go on after the name with a character before `2`. -/
theorem sortsBetween_iff {base name : String} (plain : ¬ IsAlternate base) :
    SortsBetween base name ↔
      ∃ next rest, next < '2' ∧ sortName name = base ++ String.ofList (next :: rest) := by
  rw [SortsBetween, OrderKey.Before, OrderKey.Before, code_sortName_alternateName,
    sortName_of_not_isAlternate plain, OrderCode.before_and_before_append_iff]
  constructor
  · rintro ⟨number, numbers, lower, split⟩
    obtain ⟨front, back, whole, isBase, isRest⟩ := List.map_eq_append_iff.mp split
    obtain ⟨next, rest, rfl, rfl, -⟩ := List.map_eq_cons_iff.mp isRest
    have same : front = base.toList :=
      List.map_injective_iff.mpr (fun _ _ => Char.toNat_inj.mp) isBase
    refine ⟨next, rest, lower, ?_⟩
    rw [← String.toList_inj, whole, same, String.toList_append, String.toList_ofList]
  · rintro ⟨next, rest, lower, split⟩
    refine ⟨next.toNat, rest.map Char.toNat, lower, ?_⟩
    simp [split, OrderKey.code]

/-! ## Sorting by name -/

/-- Every alternate of a name comes after every card with the name, and only cards with one of the
two names stand between them. -/
def AlternatesFollow (base : String) (cards : List Card) : Prop :=
  ∀ (i j : Nat) (first second : Card), cards[i]? = some first → cards[j]? = some second →
    first.name = base → second.name = alternateName base →
      i < j ∧ ∀ (k : Nat) (card : Card), i < k → k < j → cards[k]? = some card →
        card.name = base ∨ card.name = alternateName base

/-- Nothing parts a name from its alternate: no other name is sorted between the two, and none that
is sorted like one of them has a place where it comes between. -/
structure Undivided (base : String) (cards : List Card) : Prop where
  before : OrderKey.Before (sortName base) (sortName (alternateName base))
  noneBetween : ∀ card ∈ cards, ¬ SortsBetween base card.name
  noneAfterBase : cards.Pairwise fun earlier later => earlier.name = base →
    sortName later.name = sortName base → later.name = base
  noneBeforeAlternate : cards.Pairwise fun earlier later => later.name = alternateName base →
    sortName earlier.name = sortName (alternateName base) → earlier.name = alternateName base

section

variable {spec : SortSpec} {base : String} {cards : List Card}

theorem compare_of_byName (byName : spec.enabled = [⟨.name, .ascending, true⟩])
    (first second : Card) :
    spec.compare first second = OrderKey.compare (sortName first.name) (sortName second.name) := by
  rw [SortSpec.compare, byName]
  simp [SortEntry.compare, SortDirection.apply, Card.code, OrderKey.compare]

theorem ahead_of_byName (byName : spec.enabled = [⟨.name, .ascending, true⟩])
    {first second : Card × Nat} :
    spec.Ahead first second ↔
      OrderKey.Before (sortName first.1.name) (sortName second.1.name) ∨
        sortName first.1.name = sortName second.1.name ∧ first.2 < second.2 := by
  have tied : OrderKey.compare (sortName first.1.name) (sortName second.1.name) = .eq ↔
      sortName first.1.name = sortName second.1.name :=
    ⟨fun same => OrderKey.code_injective (OrderCode.eq_of_compare_eq same),
      fun same => by rw [same]; exact OrderCode.compare_self _⟩
  rw [SortSpec.Ahead, compare_of_byName byName, tied]
  rfl

/-- Whether alternates follow is told by the order of the placed cards. -/
theorem alternatesFollow_sortCards_iff_ahead (spec : SortSpec) (base : String)
    (cards : List Card) :
    AlternatesFollow base (sortCards cards spec) ↔
      ∀ first ∈ cards.zipIdx, ∀ second ∈ cards.zipIdx,
        first.1.name = base → second.1.name = alternateName base →
          spec.Ahead first second ∧ ∀ other ∈ cards.zipIdx, spec.Ahead first other →
            spec.Ahead other second →
              other.1.name = base ∨ other.1.name = alternateName base := by
  obtain ⟨placed, arranges, sorted⟩ : ∃ placed, spec.Arranges cards placed ∧
      sortCards cards spec = placed.map Prod.fst :=
    ⟨_, spec.arranges_mergeSort cards, List.mergeSort_zipIdx.symm⟩
  have mem_iff (card : Card × Nat) : card ∈ cards.zipIdx ↔ ∃ i : Nat, placed[i]? = some card := by
    rw [← arranges.perm.mem_iff, List.mem_iff_getElem?]
  have sorted_iff (i : Nat) (card : Card) : (sortCards cards spec)[i]? = some card ↔
      ∃ place, placed[i]? = some (card, place) := by
    simp [sorted]
  constructor
  · intro follow first isFirst second isSecond named alternate
    obtain ⟨i, atFirst⟩ := (mem_iff first).mp isFirst
    obtain ⟨j, atSecond⟩ := (mem_iff second).mp isSecond
    obtain ⟨before, between⟩ := follow i j first.1 second.1 ((sorted_iff _ _).mpr ⟨_, atFirst⟩)
      ((sorted_iff _ _).mpr ⟨_, atSecond⟩) named alternate
    refine ⟨(arranges.lt_iff_ahead atFirst atSecond).mp before, fun other isOther after ahead => ?_⟩
    obtain ⟨k, atOther⟩ := (mem_iff other).mp isOther
    exact between k other.1 ((arranges.lt_iff_ahead atFirst atOther).mpr after)
      ((arranges.lt_iff_ahead atOther atSecond).mpr ahead) ((sorted_iff _ _).mpr ⟨_, atOther⟩)
  · intro follow i j first second isFirst isSecond named alternate
    obtain ⟨firstPlace, atFirst⟩ := (sorted_iff i first).mp isFirst
    obtain ⟨secondPlace, atSecond⟩ := (sorted_iff j second).mp isSecond
    obtain ⟨ahead, between⟩ := follow _ ((mem_iff _).mpr ⟨i, atFirst⟩) _
      ((mem_iff _).mpr ⟨j, atSecond⟩) named alternate
    refine ⟨(arranges.lt_iff_ahead atFirst atSecond).mpr ahead,
      fun k card after before isCard => ?_⟩
    obtain ⟨place, atCard⟩ := (sorted_iff k card).mp isCard
    exact between _ ((mem_iff _).mpr ⟨k, atCard⟩)
      ((arranges.lt_iff_ahead atFirst atCard).mp after)
      ((arranges.lt_iff_ahead atCard atSecond).mp before)

theorem Undivided.alternatesFollow (undivided : Undivided base cards)
    (byName : spec.enabled = [⟨.name, .ascending, true⟩]) :
    AlternatesFollow base (sortCards cards spec) := by
  rw [alternatesFollow_sortCards_iff_ahead]
  intro first isFirst second isSecond named alternate
  refine ⟨(ahead_of_byName byName).mpr (.inl ?_), fun other isOther after ahead => ?_⟩
  · rw [named, alternate]
    exact undivided.before
  · rw [ahead_of_byName byName, named] at after
    rw [ahead_of_byName byName, alternate] at ahead
    rcases after with after | ⟨tied, later⟩
    · rcases ahead with ahead | ⟨tied, earlier⟩
      · have isCard : other.1 ∈ cards := List.fst_mem_of_mem_zipIdx isOther
        exact absurd ⟨after, ahead⟩ (undivided.noneBetween other.1 isCard)
      · exact .inr (Lists.pairwise_iff_places.mp undivided.noneBeforeAlternate other isOther second
          isSecond earlier alternate tied)
    · exact .inl (Lists.pairwise_iff_places.mp undivided.noneAfterBase first isFirst other isOther
        later named tied.symm)

theorem undivided_of_alternatesFollow (byName : spec.enabled = [⟨.name, .ascending, true⟩])
    (hasBase : ∃ card ∈ cards, card.name = base)
    (hasAlternate : ∃ card ∈ cards, card.name = alternateName base)
    (follow : AlternatesFollow base (sortCards cards spec)) : Undivided base cards := by
  obtain ⟨baseCard, isBase, baseNamed⟩ := hasBase
  obtain ⟨basePlace, basePlaced⟩ := Lists.exists_place isBase
  obtain ⟨alternateCard, isAlternate, alternateNamed⟩ := hasAlternate
  obtain ⟨alternatePlace, alternatePlaced⟩ := Lists.exists_place isAlternate
  rw [alternatesFollow_sortCards_iff_ahead] at follow
  have apart := sortName_ne_sortName_alternateName base
  have before : OrderKey.Before (sortName base) (sortName (alternateName base)) := by
    have ahead := (follow _ basePlaced _ alternatePlaced baseNamed alternateNamed).1
    rw [ahead_of_byName byName, baseNamed, alternateNamed] at ahead
    exact ahead.resolve_right fun tied => apart tied.1
  refine ⟨before, ?noneBetween, ?noneAfterBase, ?noneBeforeAlternate⟩
  case noneBetween =>
    rintro card isCard ⟨after, ahead⟩
    obtain ⟨place, placed⟩ := Lists.exists_place isCard
    have named := (follow _ basePlaced _ alternatePlaced baseNamed alternateNamed).2 _ placed
      ((ahead_of_byName byName).mpr (.inl (baseNamed ▸ after)))
      ((ahead_of_byName byName).mpr (.inl (alternateNamed ▸ ahead)))
    rcases named with named | named
    · exact OrderCode.Before.irrefl _ (named ▸ after)
    · exact OrderCode.Before.irrefl _ (named ▸ ahead)
  case noneAfterBase =>
    refine Lists.pairwise_iff_places.mpr fun first isFirst second isSecond places named tied => ?_
    have between := (follow first isFirst _ alternatePlaced named alternateNamed).2 second isSecond
      ((ahead_of_byName byName).mpr (.inr ⟨by rw [named, tied], places⟩))
      ((ahead_of_byName byName).mpr (.inl (by rw [tied, alternateNamed]; exact before)))
    refine between.resolve_right fun alternate => apart ?_
    rw [← tied, alternate]
  case noneBeforeAlternate =>
    refine Lists.pairwise_iff_places.mpr fun first isFirst second isSecond places alternate tied =>
      ?_
    have between := (follow _ basePlaced second isSecond baseNamed alternate).2 first isFirst
      ((ahead_of_byName byName).mpr (.inl (by rw [tied, baseNamed]; exact before)))
      ((ahead_of_byName byName).mpr (.inr ⟨by rw [alternate, tied], places⟩))
    refine between.resolve_left fun named => apart ?_
    rw [← tied, named]

/-- **When alternate arts follow their cards.** In a list with cards of a name and of its alternate
that is sorted by name alone, the alternates come right after the name exactly when nothing parts
them from it. A name that is no alternate itself always comes before its alternate, and the names
that are sorted between the two are those that are sorted by a text which goes on after the name
with a character before `2`. -/
theorem alternatesFollow_sortCards_iff (spec : SortSpec) (cards : List Card) (base : String)
    (byName : spec.enabled = [⟨.name, .ascending, true⟩])
    (hasBase : ∃ card ∈ cards, card.name = base)
    (hasAlternate : ∃ card ∈ cards, card.name = alternateName base) :
    (AlternatesFollow base (sortCards cards spec) ↔ Undivided base cards) ∧
      (¬ IsAlternate base →
        ((sortCards cards spec).Pairwise fun earlier later =>
          earlier.name = alternateName base → later.name ≠ base) ∧
        ∀ name, SortsBetween base name ↔
          ∃ next rest, next < '2' ∧ sortName name = base ++ String.ofList (next :: rest)) := by
  refine ⟨⟨undivided_of_alternatesFollow byName hasBase hasAlternate,
    fun undivided => undivided.alternatesFollow byName⟩, fun plain => ⟨?_, fun name =>
      sortsBetween_iff plain⟩⟩
  have ordered := List.pairwise_mergeSort spec.notAfter_trans spec.notAfter_total cards
  refine ordered.imp fun {earlier later} notAfter alternate named => ?_
  refine spec.notAfter_iff.mp notAfter ?_
  rw [compare_of_byName byName, alternate, named]
  exact sortName_before_alternateName plain

end

/-- By name, after an entry that does not count. -/
def namesOnly : SortSpec :=
  ⟨[⟨.manaValue, .descending, false⟩, ⟨.name, .ascending, true⟩]⟩

/-- A card of which only the name is known. -/
def namedCard (name : String) : Card :=
  releasedCard name 0 []

theorem alternatesFollow_sortCards_iff_shocker :
    let cards := [namedCard "Shocker", namedCard "A-Shock", namedCard "Shock"]
    namesOnly.enabled = [⟨.name, .ascending, true⟩] ∧
      ((∃ card ∈ cards, card.name = "Shock") ∧
        ∃ card ∈ cards, card.name = alternateName "Shock") ∧
      Undivided "Shock" cards ∧ AlternatesFollow "Shock" (sortCards cards namesOnly) := by
  intro cards
  have hasBase : ∃ card ∈ cards, card.name = "Shock" := by decide +kernel
  have hasAlternate : ∃ card ∈ cards, card.name = alternateName "Shock" := by decide +kernel
  have plain : ¬ IsAlternate "Shock" := by
    rintro ⟨base, same⟩
    have letters := congrArg String.toList same
    simp [toList_alternateName] at letters
  have undivided : Undivided "Shock" cards :=
    ⟨sortName_before_alternateName plain, by decide +kernel, by decide +kernel, by decide +kernel⟩
  have follow := (alternatesFollow_sortCards_iff namesOnly cards "Shock" rfl hasBase
    hasAlternate).1.mpr undivided
  exact ⟨rfl, ⟨hasBase, hasAlternate⟩, undivided, follow⟩

/-- The brigade has a blank where the text of the alternate has a `2`. -/
theorem not_alternatesFollow_shockBrigade :
    let cards := [namedCard "A-Shock", namedCard "Shock Brigade", namedCard "Shock"]
    ((∃ card ∈ cards, card.name = "Shock") ∧
        ∃ card ∈ cards, card.name = alternateName "Shock") ∧
      SortsBetween "Shock" "Shock Brigade" ∧
      ¬ AlternatesFollow "Shock" (sortCards cards namesOnly) := by
  intro cards
  have hasBase : ∃ card ∈ cards, card.name = "Shock" := by decide +kernel
  have hasAlternate : ∃ card ∈ cards, card.name = alternateName "Shock" := by decide +kernel
  have between : SortsBetween "Shock" "Shock Brigade" := by decide +kernel
  refine ⟨⟨hasBase, hasAlternate⟩, between, fun follow => ?_⟩
  have undivided := undivided_of_alternatesFollow rfl hasBase hasAlternate follow
  have listed : namedCard "Shock Brigade" ∈ cards := by decide +kernel
  exact undivided.noneBetween _ listed between

end DeckBuilder
