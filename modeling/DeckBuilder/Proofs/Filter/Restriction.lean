import DeckBuilder.Proofs.Filter.Acceptance

/-! # Filters with fewer wishes

A filter can be cut down to the wishes at some of its keys. The cards that it keeps are told by the
filters with one wish each, together with the one that has all the wishes about colors.
-/

namespace DeckBuilder

namespace FilterSpec

/-- The filter without its wishes outside the given keys. -/
def only (spec : FilterSpec) (keys : List FilterKey) : FilterSpec :=
  let kept (key : FilterKey) (value : Toggle) : Toggle := if key ∈ keys then value else .unset
  { spec with
    colors := spec.colors.mapEntries fun color => kept (.color color)
    multiColor := kept .multiColor spec.multiColor
    rarities := spec.rarities.mapEntries fun rarity => kept (.rarity rarity)
    manaValues := spec.manaValues.mapEntries fun bucket => kept (.manaValue bucket)
    cardTypes := spec.cardTypes.mapEntries fun cardType => kept (.cardType cardType)
    subtypes := spec.subtypes.mapEntries fun cardType group =>
      group.mapEntries fun subtype => kept (.subtype cardType subtype)
    sets := spec.sets.mapEntries fun code filter =>
      { filter with value := kept (.set code) filter.value }
    legalities := spec.legalities.mapEntries fun format statuses =>
      statuses.mapEntries fun status => kept (.legality format status)
    layouts := spec.layouts.mapEntries fun layout => kept (.layout layout)
    games := spec.games.mapEntries fun game => kept (.game game)
    tags := spec.tags.mapEntries fun tag => kept (.tag tag) }

variable {spec : FilterSpec} {context : FilterContext} {card : Card}

theorem kept?_only (keys : List FilterKey) (key : FilterKey) :
    (spec.only keys).kept? key =
      (spec.kept? key).map fun value => if key ∈ keys then value else .unset := by
  cases key with
  | subtype cardType subtype =>
    simp only [only, kept?, get?, SortedMap.get?_mapEntries]
    cases spec.subtypes.get? cardType with
    | none => rfl
    | some group => exact group.get?_mapEntries _ subtype
  | legality format status =>
    simp only [only, kept?, SortedMap.get?_mapEntries]
    cases spec.legalities.get? format with
    | none => rfl
    | some statuses => exact statuses.get?_mapEntries _ status
  | set =>
    simp only [only, kept?, get?, SortedMap.get?_mapEntries, Option.map_map, Function.comp_def]
  | color | multiColor | rarity | manaValue | cardType | layout | game | tag =>
    simp only [only, kept?, get?, SortedMap.get?_mapEntries, Option.map_some]

theorem wish_only (keys : List FilterKey) (key : FilterKey) :
    (spec.only keys).wish key = if key ∈ keys then spec.wish key else .unset := by
  rw [wish, kept?_only, wish]
  cases spec.kept? key with
  | none => simp
  | some value => rfl

theorem passesFrame_only (keys : List FilterKey) :
    (spec.only keys).passesFrame context card = spec.passesFrame context card :=
  rfl

theorem accepts_only_nil :
    (spec.only []).accepts context card ↔ spec.passesFrame context card := by
  have unset (key : FilterKey) : (spec.only []).wish key = .unset := by
    rw [wish_only, if_neg List.not_mem_nil]
  rw [accepts_iff_passesFrame unset, passesFrame_only]

theorem accepts_only_ofIdentity :
    (spec.only FilterKey.ofIdentity).accepts context card ↔
      spec.passesFrame context card ∧ spec.AllowsIdentity card := by
  have unset {key : FilterKey} (outside : key ∉ FilterKey.ofIdentity) :
      (spec.only FilterKey.ofIdentity).wish key = .unset := by
    rw [wish_only, if_neg outside]
  have same : (spec.only FilterKey.ofIdentity).AllowsIdentity card ↔ spec.AllowsIdentity card :=
    allowsIdentity_congr fun key inside => by rw [wish_only, if_pos inside]
  rw [accepts_iff, passesFrame_only, same]
  refine and_congr_right fun _ => and_iff_left ⟨fun dimension => ?_, fun key standsAlone => ?_⟩
  · exact allows_of_unset fun key inDimension =>
      unset (FilterKey.not_mem_ofIdentity_of_dimension inDimension)
  · exact meets_of_unset (unset (FilterKey.not_mem_ofIdentity_of_standsAlone standsAlone))

/-- A single wish, unless it is about colors, has to be met. -/
theorem accepts_only_singleton {key : FilterKey} (outside : key ∉ FilterKey.ofIdentity) :
    (spec.only [key]).accepts context card ↔
      spec.passesFrame context card ∧ spec.Meets card key := by
  have counted : key ≠ .multiColor := by
    rintro rfl
    exact outside List.mem_cons_self
  have unset (other : FilterKey) (apart : other ≠ key) : (spec.only [key]).wish other = .unset := by
    rw [wish_only, if_neg (mt List.mem_singleton.mp apart)]
  rw [accepts_iff_meets unset counted, passesFrame_only, Meets, wish_only,
    if_pos List.mem_cons_self, Meets]

/-- The filters ask for the same, whatever keys without preference they offer. -/
structure Agrees (first second : FilterSpec) : Prop where
  search : first.search = second.search
  hideIgnored : first.hideIgnored = second.hideIgnored
  hideUnreleased : first.hideUnreleased = second.hideUnreleased
  wish : ∀ key, first.wish key = second.wish key

theorem accepts_congr {other : FilterSpec} (agree : spec.Agrees other) :
    other.accepts context card = spec.accepts context card := by
  have frame : other.passesFrame context card = spec.passesFrame context card := by
    simp only [passesFrame, passesIgnored, passesSearch, passesRelease, agree.search,
      agree.hideIgnored, agree.hideUnreleased]
  have identity : other.AllowsIdentity card ↔ spec.AllowsIdentity card :=
    allowsIdentity_congr fun key _ => (agree.wish key).symm
  rw [Bool.eq_iff_iff, accepts_iff, accepts_iff, frame, identity]
  simp only [Allows, Meets, agree.wish]

/-- **A filter accepts what its single wishes accept.** A card passes when it passes the filter
without wishes, the filter with the wishes about colors, in every dimension each excluded key and,
if there are required ones, one of them, and each wish that stands alone. Keys without preference
have no influence. -/
theorem accepts_iff_accepts_only (spec : FilterSpec) (context : FilterContext) (card : Card) :
    (spec.accepts context card ↔
      (spec.only []).accepts context card ∧
        (spec.only FilterKey.ofIdentity).accepts context card ∧
        (∀ dimension : Dimension,
          (∀ key, key.dimension? = some dimension → spec.wish key = .exclude →
            (spec.only [key]).accepts context card) ∧
          ((∃ key, key.dimension? = some dimension ∧ spec.wish key = .require) →
            ∃ key, key.dimension? = some dimension ∧ spec.wish key = .require ∧
              (spec.only [key]).accepts context card)) ∧
        ∀ key : FilterKey, key.StandsAlone → spec.wish key ≠ .unset →
          (spec.only [key]).accepts context card) ∧
      ∀ other, spec.Agrees other → other.accepts context card = spec.accepts context card := by
  have inDimension_iff {key : FilterKey} {dimension : Dimension}
      (inDimension : key.dimension? = some dimension) :
      (spec.only [key]).accepts context card ↔
        spec.passesFrame context card ∧ spec.Meets card key :=
    accepts_only_singleton (FilterKey.not_mem_ofIdentity_of_dimension inDimension)
  have alone_iff {key : FilterKey} (standsAlone : key.StandsAlone) :
      (spec.only [key]).accepts context card ↔
        spec.passesFrame context card ∧ spec.Meets card key :=
    accepts_only_singleton (FilterKey.not_mem_ofIdentity_of_standsAlone standsAlone)
  refine ⟨⟨fun passes => ?_, fun ⟨bare, colors, dimensions, alone⟩ => ?_⟩,
    fun _ agree => accepts_congr agree⟩
  · obtain ⟨frame, identity, dimensions, alone⟩ := accepts_iff.mp passes
    refine ⟨accepts_only_nil.mpr frame, accepts_only_ofIdentity.mpr ⟨frame, identity⟩,
      fun dimension => ⟨fun key inDimension excluded => ?_, fun someRequired => ?_⟩,
      fun key standsAlone _ => (alone_iff standsAlone).mpr ⟨frame, alone key standsAlone⟩⟩
    · refine (inDimension_iff inDimension).mpr ⟨frame, ?_⟩
      exact meets_of_exclude excluded ((dimensions dimension).1 key inDimension excluded)
    · obtain ⟨key, inDimension, required, present⟩ := (dimensions dimension).2 someRequired
      refine ⟨key, inDimension, required, (inDimension_iff inDimension).mpr ⟨frame, ?_⟩⟩
      exact meets_of_require required present
  · have frame := accepts_only_nil.mp bare
    refine accepts_iff.mpr ⟨frame, (accepts_only_ofIdentity.mp colors).2,
      fun dimension => ⟨fun key inDimension excluded => ?_, fun someRequired => ?_⟩,
      fun key standsAlone => ?_⟩
    · have single := (dimensions dimension).1 key inDimension excluded
      exact ((inDimension_iff inDimension).mp single).2.2 excluded
    · obtain ⟨key, inDimension, required, single⟩ := (dimensions dimension).2 someRequired
      exact ⟨key, inDimension, required, ((inDimension_iff inDimension).mp single).2.1 required⟩
    · by_cases unset : spec.wish key = .unset
      · exact meets_of_unset unset
      · exact ((alone_iff standsAlone).mp (alone key standsAlone unset)).2

theorem agrees_offer (spec : FilterSpec) (key : FilterKey) : spec.Agrees (spec.offer key) where
  search := by cases key <;> rfl
  hideIgnored := by cases key <;> rfl
  hideUnreleased := by cases key <;> rfl
  wish other := by
    rw [wish, wish, kept?_offer]
    split <;> rfl

/-- A wish for an uncommon printing. -/
def uncommon : FilterSpec :=
  standard.set (.rarity .uncommon) .require

theorem accepts_iff_accepts_only_uncommon :
    uncommon.Agrees (uncommon.offer (.tag "burn")) ∧ uncommon.accepts .plain .mortify ∧
      (uncommon.offer (.tag "burn")).accepts .plain .mortify := by
  have agree := uncommon.agrees_offer (.tag "burn")
  have accepted : uncommon.accepts .plain .mortify := by decide +kernel
  have same := (accepts_iff_accepts_only uncommon .plain .mortify).2 _ agree
  exact ⟨agree, accepted, same.trans accepted⟩

end FilterSpec

end DeckBuilder
