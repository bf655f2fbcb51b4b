import DeckBuilder.Proofs.Filter.Acceptance
import DeckBuilder.Proofs.Lists

/-! # The two writings of colorless

A card without colors has an identity without symbols, or one whose only symbol stands for
colorless. What is not about colors does not tell the two apart, and neither does the commander,
whose identity every colorless card fits. A wish for the symbol and a clause that lists it do: they
look for the symbol itself, so that a filter that asks for colorless drops the cards without
symbols, and one that excludes it keeps them.
-/

namespace DeckBuilder

namespace Card

/-- The card with another color identity. -/
def withIdentity (card : Card) (identity : List Color) : Card :=
  { card with colorIdentity := identity }

variable {card : Card} {identity : List Color}

/-- What is not about colors does not depend on the identity. -/
theorem has_withIdentity {key : FilterKey} (outside : key ∉ FilterKey.ofIdentity) :
    (card.withIdentity identity).has key = card.has key := by
  cases key with
  | color color => exact absurd (FilterKey.color_mem_ofIdentity color) outside
  | multiColor => exact absurd List.mem_cons_self outside
  | _ => rfl

section

variable (colorless : ∀ color ∈ identity, color = .colorless)

include colorless

theorem hasColor_withIdentity_iff {color : Color} :
    (card.withIdentity identity).hasColor color ↔
      color = .colorless ∧ identity.contains .colorless := by
  have hasColor_iff : (card.withIdentity identity).hasColor color ↔ color ∈ identity :=
    List.contains_iff_mem
  rw [hasColor_iff, List.contains_iff_mem]
  constructor
  · intro listed
    exact ⟨colorless color listed, colorless color listed ▸ listed⟩
  · rintro ⟨rfl, listed⟩
    exact listed

/-- A colorless card fits every commander. -/
theorem fitsIdentityOf_withIdentity (commander : Card) :
    (card.withIdentity identity).fitsIdentityOf commander := by
  refine List.all_eq_true.mpr fun color listed => ?_
  rw [colorless color listed, beq_self_eq_true, Bool.true_or]

end

end Card

namespace Query

/-- The clause looks for the symbol of colorless, perhaps among others. -/
def listsColorless (query : Query) : Bool :=
  match query.predicate with
  | .colors listed => listed.contains .colorless
  | _ => false

variable {query : Query} {card : Card} {identity : List Color}
  (colorless : ∀ color ∈ identity, color = .colorless)

include colorless

theorem accepts_withIdentity_of_lists (lists : query.listsColorless) :
    query.accepts (card.withIdentity identity) =
      (identity.contains .colorless != query.negated) := by
  obtain ⟨predicate, negated⟩ := query
  cases predicate with
  | colors listed =>
    have holds : listed.any (card.withIdentity identity).hasColor =
        identity.contains .colorless := by
      rw [Bool.eq_iff_iff, List.any_eq_true]
      simp only [Card.hasColor_withIdentity_iff colorless]
      exact ⟨fun ⟨_, _, _, present⟩ => present,
        fun present => ⟨.colorless, List.contains_iff_mem.mp lists, rfl, present⟩⟩
    rw [accepts, Predicate.holds, holds]
  | _ => exact absurd lists Bool.false_ne_true

/-- Other clauses look for colors, which colorless cards do not have, or they are not about colors
at all. -/
theorem accepts_withIdentity_of_not_lists (other : ¬ query.listsColorless) :
    query.accepts (card.withIdentity identity) = query.accepts (card.withIdentity []) := by
  obtain ⟨predicate, negated⟩ := query
  cases predicate with
  | colors listed =>
    have absent : listed.any (card.withIdentity identity).hasColor = false := by
      refine List.any_eq_false.mpr fun color member present => ?_
      obtain ⟨rfl, -⟩ := (Card.hasColor_withIdentity_iff colorless).mp present
      exact other (List.contains_iff_mem.mpr member)
    have bare : listed.any (card.withIdentity []).hasColor = false :=
      List.any_eq_false.mpr fun _ _ => Bool.false_ne_true
    rw [accepts, accepts, Predicate.holds, Predicate.holds, absent, bare]
  | _ => rfl

end Query

namespace FilterSpec

/-- A wish or a clause asks for the symbol of colorless, or else for its absence. -/
def AsksColorless (spec : FilterSpec) (present : Bool) : Prop :=
  spec.wish (.color .colorless) = .ofBool present ∨
    ∃ query ∈ Query.parseAll spec.search.toList, query.listsColorless ∧ query.negated = !present

instance (spec : FilterSpec) (present : Bool) : Decidable (spec.AsksColorless present) :=
  inferInstanceAs (Decidable (_ ∨ _))

/-- The card, taken as colorless, passes all that is not about the symbol of colorless. A filter
that requires colors passes it only if colorless is one of them. -/
structure AdmitsColorless (spec : FilterSpec) (context : FilterContext) (card : Card) : Prop where
  canCommand : context.selectingCommander → card.canCommand
  ignored : spec.passesIgnored context card
  released : spec.passesRelease context card
  clauses : ∀ query ∈ Query.parseAll spec.search.toList, ¬ query.listsColorless →
    query.accepts (card.withIdentity [])
  colors : (∃ color, spec.wish (.color color) = .require) →
    spec.wish (.color .colorless) = .require
  dimensions : ∀ dimension, spec.Allows card dimension
  alone : ∀ key : FilterKey, key.StandsAlone → spec.Meets card key

variable {spec : FilterSpec} {context : FilterContext} {card : Card} {identity : List Color}

/-! ## What is not about colors -/

theorem allows_withIdentity_iff {dimension : Dimension} :
    spec.Allows (card.withIdentity identity) dimension ↔ spec.Allows card dimension := by
  have same {key : FilterKey} (inDimension : key.dimension? = some dimension) :
      (card.withIdentity identity).has key = card.has key :=
    Card.has_withIdentity (FilterKey.not_mem_ofIdentity_of_dimension inDimension)
  refine and_congr (forall₃_congr fun key inDimension _ => ?_) (imp_congr_right fun _ =>
    exists_congr fun key => and_congr_right fun inDimension => and_congr_right fun _ => ?_)
  · rw [same inDimension]
  · rw [same inDimension]

theorem meets_withIdentity_iff {key : FilterKey} (standsAlone : key.StandsAlone) :
    spec.Meets (card.withIdentity identity) key ↔ spec.Meets card key := by
  have outside := FilterKey.not_mem_ofIdentity_of_standsAlone standsAlone
  rw [Meets, Card.has_withIdentity outside, Meets]

section

variable (colorless : ∀ color ∈ identity, color = .colorless)

include colorless

/-! ## Commanders, clauses and color wishes -/

theorem passesCommander_withIdentity_iff :
    passesCommander context (card.withIdentity identity) ↔
      (context.selectingCommander → card.canCommand) := by
  have fits : context.commander.all (card.withIdentity identity).fitsIdentityOf := by
    cases context.commander with
    | none => rfl
    | some commander => exact Card.fitsIdentityOf_withIdentity colorless commander
  have same : (card.withIdentity identity).canCommand = card.canCommand := rfl
  rw [passesCommander, same, fits]
  cases context.selectingCommander <;> simp

/-- Of the clauses that look for colorless, a card with the symbol fails those that are negated, and
one without it the others. -/
theorem passesSearch_withIdentity_iff :
    spec.passesSearch (card.withIdentity identity) ↔
      (∀ query ∈ Query.parseAll spec.search.toList, ¬ query.listsColorless →
        query.accepts (card.withIdentity [])) ∧
        ¬ ∃ query ∈ Query.parseAll spec.search.toList,
          query.listsColorless ∧ query.negated = identity.contains .colorless := by
  rw [passesSearch, List.all_eq_true]
  constructor
  · intro every
    refine ⟨fun query listed other => ?_, fun ⟨query, listed, lists, negated⟩ => ?_⟩
    · rw [← Query.accepts_withIdentity_of_not_lists colorless other]
      exact every query listed
    · have accepted := every query listed
      rw [Query.accepts_withIdentity_of_lists colorless lists, negated,
        bne_self_eq_false] at accepted
      exact Bool.false_ne_true accepted
  · rintro ⟨others, none⟩ query listed
    by_cases lists : query.listsColorless
    · rw [Query.accepts_withIdentity_of_lists colorless lists, bne_iff_ne]
      exact fun same => none ⟨query, listed, lists, same.symm⟩
    · rw [Query.accepts_withIdentity_of_not_lists colorless lists]
      exact others query listed lists

/-- A colorless card has a required color only if that is colorless. -/
theorem allowsIdentity_withIdentity_iff (unset : spec.multiColor = .unset) :
    spec.AllowsIdentity (card.withIdentity identity) ↔
      ((∃ color, spec.wish (.color color) = .require) →
        spec.wish (.color .colorless) = .require) ∧
        spec.wish (.color .colorless) ≠ .ofBool !identity.contains .colorless := by
  have hasColor_iff {color : Color} : (card.withIdentity identity).hasColor color ↔
      color = .colorless ∧ identity.contains .colorless :=
    Card.hasColor_withIdentity_iff colorless
  rw [allowsIdentity_iff_of_unset unset]
  constructor
  · rintro ⟨noneExcluded, someRequired⟩
    refine ⟨fun required => ?_, fun asked => ?_⟩
    · obtain ⟨color, isRequired, present⟩ := someRequired required
      exact (hasColor_iff.mp present).1 ▸ isRequired
    · -- Colorless is excluded where the card has it, or required where the card has nothing.
      cases marked : identity.contains .colorless with
      | true =>
        rw [marked] at asked
        have absent := noneExcluded .colorless asked
        exact Bool.false_ne_true (absent.symm.trans (hasColor_iff.mpr ⟨rfl, marked⟩))
      | false =>
        rw [marked] at asked
        obtain ⟨color, -, present⟩ := someRequired ⟨.colorless, asked⟩
        exact Bool.false_ne_true (marked.symm.trans (hasColor_iff.mp present).2)
  · rintro ⟨onlyColorless, unasked⟩
    refine ⟨fun color excluded => Bool.eq_false_iff.mpr fun present => unasked ?_,
      fun required => ⟨.colorless, onlyColorless required, hasColor_iff.mpr ⟨rfl, ?_⟩⟩⟩
    · obtain ⟨rfl, marked⟩ := hasColor_iff.mp present
      rw [excluded, marked]
      rfl
    · by_contra unmarked
      rw [Bool.not_eq_true] at unmarked
      refine unasked ?_
      rw [onlyColorless required, unmarked]
      rfl

/-! ## Both writings -/

/-- **A colorless card passes when it passes all that is not about the symbol of colorless, and
nothing asks for the symbol that it lacks or for the absence of the one that it has.** -/
theorem accepts_withIdentity_iff (unset : spec.multiColor = .unset) :
    spec.accepts context (card.withIdentity identity) ↔
      spec.AdmitsColorless context card ∧
        ¬ spec.AsksColorless !identity.contains .colorless := by
  have ignored : spec.passesIgnored context (card.withIdentity identity) =
      spec.passesIgnored context card := rfl
  have released : spec.passesRelease context (card.withIdentity identity) =
      spec.passesRelease context card := rfl
  have alone : (∀ key : FilterKey, key.StandsAlone → spec.Meets (card.withIdentity identity) key) ↔
      ∀ key : FilterKey, key.StandsAlone → spec.Meets card key :=
    forall₂_congr fun _ standsAlone => meets_withIdentity_iff standsAlone
  rw [accepts_iff, alone, allowsIdentity_withIdentity_iff colorless unset, AsksColorless,
    Bool.not_not, passesFrame, ignored, released]
  simp only [Bool.and_eq_true, passesCommander_withIdentity_iff colorless,
    passesSearch_withIdentity_iff colorless, allows_withIdentity_iff]
  constructor
  · rintro ⟨⟨⟨⟨canCommand, ignored⟩, clauses, noClause⟩, released⟩, ⟨colors, noWish⟩, dimensions,
      alone⟩
    exact ⟨⟨canCommand, ignored, released, clauses, colors, dimensions, alone⟩,
      not_or.mpr ⟨noWish, noClause⟩⟩
  · rintro ⟨⟨canCommand, ignored, released, clauses, colors, dimensions, alone⟩, unasked⟩
    obtain ⟨noWish, noClause⟩ := not_or.mp unasked
    exact ⟨⟨⟨⟨canCommand, ignored⟩, clauses, noClause⟩, released⟩, ⟨colors, noWish⟩, dimensions,
      alone⟩

end

/-- **When the two writings of colorless are treated alike.** In a filter that leaves the number of
colors open, a card without symbols is kept when it is admitted and nothing asks for the symbol of
colorless, and the same card with the symbol when nothing asks for its absence. So the filter keeps
the same cards of a list in either writing exactly when it asks for both or for neither, or admits
none of the cards. -/
theorem filterCards_withIdentity_iff (spec : FilterSpec) (context : FilterContext)
    (cards : List Card) (unset : spec.multiColor = .unset) :
    (∀ card : Card,
      (spec.accepts context (card.withIdentity []) ↔
        spec.AdmitsColorless context card ∧ ¬ spec.AsksColorless true) ∧
      (spec.accepts context (card.withIdentity [.colorless]) ↔
        spec.AdmitsColorless context card ∧ ¬ spec.AsksColorless false)) ∧
    ((filterCards (cards.map (·.withIdentity [])) spec context).map
        (·.withIdentity [.colorless]) =
      filterCards (cards.map (·.withIdentity [.colorless])) spec context ↔
        ∀ card ∈ cards, spec.AdmitsColorless context card →
          (spec.AsksColorless true ↔ spec.AsksColorless false)) := by
  have bare (card : Card) : spec.accepts context (card.withIdentity []) ↔
      spec.AdmitsColorless context card ∧ ¬ spec.AsksColorless true :=
    accepts_withIdentity_iff (by simp) unset
  have marked (card : Card) : spec.accepts context (card.withIdentity [.colorless]) ↔
      spec.AdmitsColorless context card ∧ ¬ spec.AsksColorless false :=
    accepts_withIdentity_iff (by simp) unset
  -- What is kept without symbols, written with the symbol, is kept of the list with the symbol by
  -- a test that takes the symbol off.
  have rewritten : (filterCards (cards.map (·.withIdentity [])) spec context).map
      (·.withIdentity [.colorless]) =
        (cards.map (·.withIdentity [.colorless])).filter fun card =>
          spec.accepts context (card.withIdentity []) := by
    rw [filterCards, List.filter_map, List.filter_map, List.map_map]
    rfl
  refine ⟨fun card => ⟨bare card, marked card⟩, ?_⟩
  rw [rewritten, filterCards, Lists.filter_eq_filter_iff, List.forall_mem_map]
  refine forall₂_congr fun card _ => ?_
  have same : (card.withIdentity [.colorless]).withIdentity [] = card.withIdentity [] := rfl
  rw [same, Bool.eq_iff_iff, bare card, marked card, and_congr_right_iff, not_iff_not]

/-- White is excluded by a wish, blue and red by a clause. -/
def withoutWhite : FilterSpec :=
  { standard.set (.color .white) .exclude with search := "!c:ur" }

/-- A wish for colorless. -/
def colorlessOnly : FilterSpec :=
  standard.set (.color .colorless) .require

end FilterSpec

/-- An artifact without colors. -/
def Card.relic : Card :=
  { Card.mortify with id := "relic", name := "Relic", colorIdentity := [], typeLine := "Artifact" }

namespace FilterSpec

/-- Colors are excluded, the commander has two, and colorless is not asked about. -/
theorem filterCards_withIdentity_iff_withoutWhite :
    let context := { FilterContext.plain with commander := some .mortify }
    withoutWhite.multiColor = .unset ∧ ¬ withoutWhite.AsksColorless true ∧
      ¬ withoutWhite.AsksColorless false ∧
      filterCards [Card.relic] withoutWhite context = [.relic] ∧
      (filterCards ([Card.relic].map (·.withIdentity [])) withoutWhite context).map
          (·.withIdentity [.colorless]) =
        filterCards ([Card.relic].map (·.withIdentity [.colorless])) withoutWhite context := by
  intro context
  have unset : withoutWhite.multiColor = .unset := rfl
  have noWish : ¬ withoutWhite.AsksColorless true := by decide +kernel
  have noExclusion : ¬ withoutWhite.AsksColorless false := by decide +kernel
  refine ⟨unset, noWish, noExclusion, by decide +kernel, ?_⟩
  refine (filterCards_withIdentity_iff withoutWhite context [.relic] unset).2.mpr fun _ _ _ => ?_
  exact iff_of_false noWish noExclusion

/-- Who asks for colorless gets the card in the one writing and not in the other. -/
theorem filterCards_withIdentity_colorlessOnly :
    colorlessOnly.multiColor = .unset ∧
      ¬ (Card.relic.withIdentity [] ∈
          filterCards [Card.relic.withIdentity []] colorlessOnly .plain ↔
        Card.relic.withIdentity [.colorless] ∈
          filterCards [Card.relic.withIdentity [.colorless]] colorlessOnly .plain) := by
  decide +kernel

end FilterSpec

end DeckBuilder
