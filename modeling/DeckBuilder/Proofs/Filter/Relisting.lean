import DeckBuilder.Proofs.Filter.Toggling
import Mathlib.Data.List.Perm.Basic

/-! # The order in which cards are listed

A filter of cards offers what the cards bring, one thing after the other, and of two printings with
one set the first one decides how the set is displayed. When the printings of a set agree, the order
has no influence: the cards can be listed in another order, and so can the printings of each card.
Cards that are listed again never have any.
-/

namespace DeckBuilder

namespace Card

/-- The other card is the same one with its printings in another order. -/
structure Reprints (card other : Card) : Prop where
  printings : card.printings.Perm other.printings
  rest : other = { card with printings := other.printings }

/-- What a card brings into a filter, one thing after the other. -/
def offerings (card : Card) : List (FilterKey ⊕ Printing) :=
  card.filterKeys.map .inl ++ card.printings.map .inr

theorem inl_mem_offerings {card : Card} {key : FilterKey} :
    .inl key ∈ card.offerings ↔ key ∈ card.filterKeys := by
  simp [offerings]

theorem inr_mem_offerings {card : Card} {printing : Printing} :
    .inr printing ∈ card.offerings ↔ printing ∈ card.printings := by
  simp [offerings]

theorem offerings_perm {card other : Card} (reprints : card.Reprints other) :
    card.offerings.Perm other.offerings := by
  have keys : card.filterKeys.Perm other.filterKeys := by
    rw [reprints.rest]
    exact (reprints.printings.flatMap_right _).append_left _
  exact (keys.map _).append (reprints.printings.map _)

end Card

/-- If the printings have the same set, they tell the same about it. -/
def Printing.AgreesOnSet (first second : Printing) : Prop :=
  first.set = second.set →
    first.setName = second.setName ∧ first.releasedAt = second.releasedAt ∧
      first.setType = second.setType ∧ first.games = second.games

instance (first second : Printing) : Decidable (first.AgreesOnSet second) :=
  inferInstanceAs (Decidable (_ → _))

/-- Any two printings of the cards agree on their set. -/
def SetsAgree (cards : List Card) : Prop :=
  ∀ first ∈ cards.flatMap (·.printings), ∀ second ∈ cards.flatMap (·.printings),
    first.AgreesOnSet second

instance (cards : List Card) : Decidable (SetsAgree cards) :=
  inferInstanceAs (Decidable (∀ _ ∈ _, ∀ _ ∈ _, _))

/-- The same cards are listed in another order, and so may be the printings of each of them. -/
def Relists (cards listed : List Card) : Prop :=
  ∃ between, cards.Perm between ∧ List.Forall₂ Card.Reprints between listed

namespace FilterSpec

/-- Makes one thing that a card brings available. -/
def take (spec : FilterSpec) : FilterKey ⊕ Printing → FilterSpec
  | .inl key => spec.offer key
  | .inr printing => spec.offerSet printing

theorem offerCard_eq_foldl (spec : FilterSpec) (card : Card) :
    spec.offerCard card = card.offerings.foldl take spec := by
  rw [Card.offerings, List.foldl_append, List.foldl_map, List.foldl_map]
  rfl

theorem ofCards_eq_foldl (cards : List Card) :
    ofCards cards = (cards.flatMap (·.offerings)).foldl take standard := by
  rw [ofCards, List.foldl_flatMap]
  exact congrArg (List.foldl · standard cards) (funext₂ offerCard_eq_foldl)

/-! ## Another order -/

theorem offer_comm (spec : FilterSpec) (key other : FilterKey) :
    (spec.offer key).offer other = (spec.offer other).offer key := by
  simp only [offer_eq_alter]
  exact alter_comm spec fun _ _ => rfl

theorem offerSet_offer (spec : FilterSpec) {key : FilterKey} (listed : key.IsListed)
    (printing : Printing) :
    (spec.offerSet printing).offer key = (spec.offer key).offerSet printing := by
  cases key with
  | cardType | subtype | legality | layout | tag => rfl
  | color | multiColor | rarity | manaValue | set | game => exact listed.elim

theorem offerSet_comm (spec : FilterSpec) {first second : Printing}
    (agree : first.AgreesOnSet second) :
    (spec.offerSet first).offerSet second = (spec.offerSet second).offerSet first := by
  simp only [offerSet]
  rw [SortedMap.insertIfNew_comm]
  intro same
  obtain ⟨name, date, type, games⟩ := agree same
  rw [name, date, type, games]

/-- What cards bring can be taken in any order when the printings of a set agree. -/
theorem take_comm {cards : List Card} (agree : SetsAgree cards)
    {first second : FilterKey ⊕ Printing} (left : first ∈ cards.flatMap (·.offerings))
    (right : second ∈ cards.flatMap (·.offerings)) (spec : FilterSpec) :
    (spec.take first).take second = (spec.take second).take first := by
  have listed {key : FilterKey} (member : .inl key ∈ cards.flatMap (·.offerings)) :
      key.IsListed := by
    obtain ⟨card, -, inside⟩ := List.mem_flatMap.mp member
    exact isListed_of_mem_filterKeys (Card.inl_mem_offerings.mp inside)
  have printed {printing : Printing} (member : .inr printing ∈ cards.flatMap (·.offerings)) :
      printing ∈ cards.flatMap (·.printings) := by
    obtain ⟨card, isCard, inside⟩ := List.mem_flatMap.mp member
    exact List.mem_flatMap.mpr ⟨card, isCard, Card.inr_mem_offerings.mp inside⟩
  match first, second with
  | .inl key, .inl other => exact offer_comm spec key other
  | .inl _, .inr printing => exact (offerSet_offer spec (listed left) printing).symm
  | .inr printing, .inl _ => exact offerSet_offer spec (listed right) printing
  | .inr _, .inr _ => exact offerSet_comm spec (agree _ (printed left) _ (printed right))

theorem ofCards_relists {cards listed : List Card} (agree : SetsAgree cards)
    (relists : Relists cards listed) : ofCards listed = ofCards cards := by
  obtain ⟨between, perm, reprinted⟩ := relists
  have offerings : (between.flatMap (·.offerings)).Perm (listed.flatMap (·.offerings)) := by
    refine List.Perm.flatten_congr ?_
    rw [List.forall₂_map_left_iff, List.forall₂_map_right_iff]
    exact reprinted.imp fun _ _ => Card.offerings_perm
  have whole := (perm.flatMap_right (·.offerings)).trans offerings
  rw [ofCards_eq_foldl, ofCards_eq_foldl]
  exact (whole.foldl_eq' (fun first left second right spec => take_comm agree left right spec)
    standard).symm

/-! ## The same cards once more -/

theorem offer_eq_self {spec : FilterSpec} {key : FilterKey} (offered : spec.Offers key) :
    spec.offer key = spec := by
  obtain ⟨value, found⟩ := Option.isSome_iff_exists.mp offered
  rw [offer_eq_alter]
  cases key with
  | color | rarity | manaValue | cardType | layout | game | tag =>
    simp only [alter]
    rw [SortedMap.update_eq_self found rfl]
  | multiColor => rfl
  | set =>
    obtain ⟨filter, isFilter, -⟩ := Option.map_eq_some_iff.mp found
    simp only [alter]
    rw [SortedMap.update_eq_self isFilter rfl]
  | subtype | legality =>
    obtain ⟨group, isGroup, inside⟩ := Option.bind_eq_some_iff.mp found
    simp only [alter]
    rw [SortedMap.update_eq_self isGroup (SortedMap.update_eq_self inside rfl)]

theorem offerSet_eq_self {spec : FilterSpec} {printing : Printing}
    (offered : spec.Offers (.set printing.set)) : spec.offerSet printing = spec := by
  rw [Offers, get?, Option.isSome_map] at offered
  rw [offerSet, SortedMap.insertIfNew_eq_self offered]

/-- A card that brings nothing new leaves a filter as it is. -/
theorem offerCard_eq_self {spec : FilterSpec} {card : Card}
    (offered : ∀ key, card.Brings key → spec.Offers key) : spec.offerCard card = spec := by
  have keys : card.filterKeys.foldl offer spec = spec := by
    refine Lists.foldl_eq_self fun key member => offer_eq_self (offered key ?_)
    exact .inr ⟨key, member, rfl⟩
  rw [offerCard, keys]
  refine Lists.foldl_eq_self fun printing member => offerSet_eq_self (offered _ ?_)
  exact .inl ⟨printing, member, rfl⟩

theorem ofCards_append_of_subset {cards again : List Card} (listed : again ⊆ cards) :
    ofCards (cards ++ again) = ofCards cards := by
  rw [ofCards, List.foldl_append]
  refine Lists.foldl_eq_self fun card member => offerCard_eq_self fun key brings => ?_
  exact (offers_ofCards cards).mpr (.inl ⟨card, listed member, brings⟩)

/-- **A filter of cards depends on what the cards bring, not on how they are listed.** When the
printings of a set agree, the cards and the printings of each card can be listed in any order: the
filter, its text and its schema hash are the same. Cards that are listed once more never change
it. -/
theorem ofCards_depends_on_content :
    (∀ cards listed, SetsAgree cards → Relists cards listed →
      ofCards listed = ofCards cards ∧ (ofCards listed).text = (ofCards cards).text ∧
        (ofCards listed).schemaHash = (ofCards cards).schemaHash) ∧
      ∀ cards again : List Card, again ⊆ cards → ofCards (cards ++ again) = ofCards cards := by
  refine ⟨fun cards listed agree relists => ?_, fun cards again => ofCards_append_of_subset⟩
  have same := ofCards_relists agree relists
  exact ⟨same, congrArg text same, congrArg schemaHash same⟩

/-- A printing of which nothing but its set and one legality is known. -/
def legalPrinting (set setName status : String) : Printing :=
  ⟨set, set, setName, none, .common, none, SortedMap.ofList [("modern", status)], [.paper], [],
    none, none, false⟩

/-- An instant with the given printings. -/
def opt (printings : List Printing) : Card :=
  { Card.shock with id := "opt", name := "Opt", colorIdentity := [.blue], printings }

/-- Both cards have a printing in one set, with the same legality written in two ways. -/
theorem ofCards_depends_on_content_opt :
    let archived := legalPrinting "sta" "Archive" "LEGAL"
    let recent := legalPrinting "dom" "Dominaria" "banned"
    let cards := [.shock, opt [archived, recent]]
    let listed := [opt [recent, archived], .shock]
    (SetsAgree cards ∧ Relists cards listed ∧ ofCards listed = ofCards cards) ∧
      [.shock] ⊆ cards ∧ ofCards (cards ++ [.shock]) = ofCards cards := by
  intro archived recent cards listed
  have agree : SetsAgree cards := by decide +kernel
  have swapped : (opt [archived, recent]).Reprints (opt [recent, archived]) :=
    ⟨List.Perm.swap recent archived [], rfl⟩
  have kept : Card.shock.Reprints .shock :=
    ⟨List.Perm.refl _, rfl⟩
  have relists : Relists cards listed :=
    ⟨[opt [archived, recent], .shock], List.Perm.swap _ _ [], .cons swapped (.cons kept .nil)⟩
  have inside : [.shock] ⊆ cards :=
    List.cons_subset.mpr ⟨List.mem_cons_self, List.nil_subset _⟩
  obtain ⟨ordered, again⟩ := ofCards_depends_on_content
  exact ⟨⟨agree, relists, (ordered cards listed agree relists).1⟩, inside, again _ _ inside⟩

end FilterSpec

end DeckBuilder
