import DeckBuilder.Filter.Acceptance
import DeckBuilder.Proofs.Filter.Wishes

/-! # What a filter asks of a card, wish by wish

A card passes a filter when it passes what the filter asks apart from its toggles, the color wishes
taken together, every dimension, and every wish for a subtype or a tag. In a dimension no excluded
key may hold and, if keys are required, one of them has to. Toggles without preference ask for
nothing.
-/

namespace DeckBuilder

/-! ## Choices -/

namespace Choices

variable {α κ : Type} {values : List α} {key : α → κ} {toggle : α → Toggle} {has : κ → Bool}

theorem mem_required {choice : κ} :
    choice ∈ (ofToggles (values.map fun value => (key value, toggle value))).required ↔
      ∃ value ∈ values, toggle value = .require ∧ key value = choice := by
  simp [ofToggles, Toggle.isPositive, and_assoc]

theorem mem_excluded {choice : κ} :
    choice ∈ (ofToggles (values.map fun value => (key value, toggle value))).excluded ↔
      ∃ value ∈ values, toggle value = .exclude ∧ key value = choice := by
  simp [ofToggles, Toggle.isNegative, and_assoc]

theorem allowedBy_iff {choices : Choices κ} :
    choices.allowedBy has ↔
      (∀ choice ∈ choices.excluded, has choice = false) ∧
        ((∃ choice, choice ∈ choices.required) → ∃ choice ∈ choices.required, has choice) := by
  have some_iff : choices.required.isEmpty = true ∨ (∃ choice ∈ choices.required, has choice) ↔
      ((∃ choice, choice ∈ choices.required) → ∃ choice ∈ choices.required, has choice) := by
    rw [List.isEmpty_iff, List.eq_nil_iff_forall_not_mem, ← not_exists, imp_iff_not_or]
  rw [allowedBy, Bool.and_eq_true, Bool.or_eq_true, List.any_eq_true, some_iff, and_comm]
  simp

theorem demandedOf_iff {choices : Choices κ} :
    choices.demandedOf has ↔
      (∀ choice ∈ choices.required, has choice) ∧
        ∀ choice ∈ choices.excluded, has choice = false := by
  simp [demandedOf]

end Choices

/-! ## Keys -/

/-- The dimensions in which one required key out of several is enough. Every format is one of its
own. -/
inductive Dimension where
  | rarity
  | manaValue
  | set
  | cardType
  | layout
  | game
  | legality (format : String)
deriving DecidableEq, Repr

namespace FilterKey

/-- The dimension of a key. Color wishes are combined with the wished number of colors, and wishes
for subtypes and tags count one by one. -/
def dimension? : FilterKey → Option Dimension
  | rarity _ => some .rarity
  | manaValue _ => some .manaValue
  | set _ => some .set
  | cardType _ => some .cardType
  | layout _ => some .layout
  | game _ => some .game
  | legality format _ => some (.legality format)
  | color _ | multiColor | subtype _ _ | tag _ => none

/-- A wish for the key counts by itself. -/
def StandsAlone : FilterKey → Prop
  | subtype _ _ | tag _ => True
  | color _ | multiColor | rarity _ | manaValue _ | cardType _ | set _ | legality _ _ | layout _
  | game _ => False

/-- The keys that are about the color identity. -/
def ofIdentity : List FilterKey :=
  .multiColor :: Color.all.map .color

theorem color_mem_ofIdentity (color : Color) : .color color ∈ ofIdentity := by
  cases color <;> decide

/-- Every key is about the color identity, in a dimension or counted by itself. -/
theorem mem_ofIdentity_iff (key : FilterKey) :
    key ∈ ofIdentity ↔ key.dimension? = none ∧ ¬ key.StandsAlone := by
  cases key with
  | color color => simp [color_mem_ofIdentity, dimension?, StandsAlone]
  | _ => simp [ofIdentity, dimension?, StandsAlone]

theorem not_mem_ofIdentity_of_dimension {key : FilterKey} {dimension : Dimension}
    (inDimension : key.dimension? = some dimension) : key ∉ ofIdentity := by
  simp [mem_ofIdentity_iff, inDimension]

theorem not_mem_ofIdentity_of_standsAlone {key : FilterKey} (standsAlone : key.StandsAlone) :
    key ∉ ofIdentity := by
  simp [mem_ofIdentity_iff, standsAlone]

end FilterKey

/-! ## Wishes -/

/-- Whether a card has what a key names. -/
def Card.has (card : Card) : FilterKey → Bool
  | .color color => card.hasColor color
  | .multiColor => 1 < card.colorIdentity.length
  | .rarity rarity => card.printings.any fun printing => printing.rarity == rarity
  | .manaValue bucket => bucket.contains card.manaValue
  | .cardType cardType => mentions (lowercase cardType) card.typeLine
  | .subtype cardType subtype =>
    mentions (lowercase cardType) card.typeLine && mentions (lowercase subtype) card.typeLine
  | .set code => card.printings.any fun printing => sameIgnoringAsciiCase printing.set code
  | .legality format status => (card.statusesIn format).contains (lowercase status)
  | .layout layout => card.hasLayout layout
  | .game game => card.printings.any fun printing => printing.games.contains game
  | .tag tag => card.tags.contains tag

namespace FilterSpec

/-- The card meets the wish at a key, if there is one. -/
def Meets (spec : FilterSpec) (card : Card) (key : FilterKey) : Prop :=
  (spec.wish key = .require → card.has key) ∧ (spec.wish key = .exclude → card.has key = false)

/-- The card has nothing that is excluded in a dimension and, if something is required there, some
of it. -/
def Allows (spec : FilterSpec) (card : Card) (dimension : Dimension) : Prop :=
  (∀ key, key.dimension? = some dimension → spec.wish key = .exclude → card.has key = false) ∧
    ((∃ key, key.dimension? = some dimension ∧ spec.wish key = .require) →
      ∃ key, key.dimension? = some dimension ∧ spec.wish key = .require ∧ card.has key)

/-- The color identity has the wished size and no excluded color. It has a required color if there
is one, and all of them when more than one color is wished for and no color is excluded. -/
@[mk_iff]
structure AllowsIdentity (spec : FilterSpec) (card : Card) : Prop where
  several : spec.multiColor = .require → 1 < card.colorIdentity.length
  single : spec.multiColor = .exclude → card.colorIdentity.length = 1
  noneExcluded : ∀ color, spec.wish (.color color) = .exclude → card.hasColor color = false
  someRequired : (∃ color, spec.wish (.color color) = .require) →
    ∃ color, spec.wish (.color color) = .require ∧ card.hasColor color
  allRequired : spec.multiColor = .require → (∀ color, spec.wish (.color color) ≠ .exclude) →
    ∀ color, spec.wish (.color color) = .require → card.hasColor color

/-- What a filter asks apart from its toggles. -/
def passesFrame (spec : FilterSpec) (context : FilterContext) (card : Card) : Bool :=
  passesCommander context card && spec.passesIgnored context card && spec.passesSearch card &&
    spec.passesRelease context card

variable {spec : FilterSpec} {context : FilterContext} {card : Card}

theorem wish_iff_mem_entries {κ : Type} [OrderKey κ] {toggles : ToggleMap κ} {key : FilterKey}
    {part : κ} (value : Toggle) (kept : spec.kept? key = toggles.get? part) (set : value ≠ .unset) :
    spec.wish key = value ↔ (part, value) ∈ toggles.entries := by
  rw [wish_eq_iff set, kept, SortedMap.get?_eq_some_iff]

theorem allowsIdentity_congr {other : FilterSpec}
    (same : ∀ key ∈ FilterKey.ofIdentity, other.wish key = spec.wish key) :
    other.AllowsIdentity card ↔ spec.AllowsIdentity card := by
  have multiColor : other.multiColor = spec.multiColor := same .multiColor List.mem_cons_self
  have colors (color : Color) : other.wish (.color color) = spec.wish (.color color) :=
    same _ (FilterKey.color_mem_ofIdentity color)
  simp only [allowsIdentity_iff, multiColor, colors]

/-- When the number of colors does not matter, one required color out of several is enough. -/
theorem allowsIdentity_iff_of_unset (unset : spec.multiColor = .unset) :
    spec.AllowsIdentity card ↔
      (∀ color, spec.wish (.color color) = .exclude → card.hasColor color = false) ∧
        ((∃ color, spec.wish (.color color) = .require) →
          ∃ color, spec.wish (.color color) = .require ∧ card.hasColor color) := by
  simp [allowsIdentity_iff, unset]

theorem allowsIdentity_of_unset (unset : ∀ key ∈ FilterKey.ofIdentity, spec.wish key = .unset) :
    spec.AllowsIdentity card := by
  have multiColor : spec.multiColor = .unset := unset .multiColor List.mem_cons_self
  have colors (color : Color) : spec.wish (.color color) = .unset :=
    unset _ (FilterKey.color_mem_ofIdentity color)
  simp [allowsIdentity_iff, multiColor, colors]

theorem meets_of_unset {key : FilterKey} (unset : spec.wish key = .unset) :
    spec.Meets card key := by
  simp [Meets, unset]

theorem meets_of_require {key : FilterKey} (required : spec.wish key = .require)
    (present : card.has key) : spec.Meets card key := by
  simp [Meets, required, present]

theorem meets_of_exclude {key : FilterKey} (excluded : spec.wish key = .exclude)
    (absent : card.has key = false) : spec.Meets card key := by
  simp [Meets, excluded, absent]

theorem allows_of_unset {dimension : Dimension}
    (unset : ∀ key : FilterKey, key.dimension? = some dimension → spec.wish key = .unset) :
    spec.Allows card dimension := by
  refine ⟨fun key inDimension excluded => ?_, fun ⟨key, inDimension, required⟩ => ?_⟩
  · cases (unset key inDimension).symm.trans excluded
  · cases (unset key inDimension).symm.trans required

/-! ## Dimensions -/

section

variable {κ ι ν : Type} [OrderKey κ] {dimension : Dimension}

/-- The wishes of a dimension are the toggles of the map in which it is kept. -/
theorem wish_in_dimension_iff {map : SortedMap κ ν} {toggle : ν → Toggle} {named : κ → FilterKey}
    (covers : ∀ key : FilterKey, key.dimension? = some dimension ↔ ∃ part, named part = key)
    (kept : ∀ part, spec.kept? (named part) = (map.get? part).map toggle) (value : Toggle)
    (set : value ≠ .unset) (key : FilterKey) :
    key.dimension? = some dimension ∧ spec.wish key = value ↔
      ∃ entry ∈ map.entries, toggle entry.2 = value ∧ named entry.1 = key := by
  rw [covers, wish_eq_iff set]
  constructor
  · rintro ⟨⟨part, rfl⟩, found⟩
    rw [kept, Option.map_eq_some_iff] at found
    obtain ⟨stored, isStored, same⟩ := found
    exact ⟨(part, stored), SortedMap.get?_eq_some_iff.mp isStored, same, rfl⟩
  · rintro ⟨⟨part, stored⟩, member, same, rfl⟩
    refine ⟨⟨part, rfl⟩, ?_⟩
    rw [kept, SortedMap.get?_eq_some_iff.mpr member, Option.map_some, same]

/-- The choices from the map in which a dimension is kept allow what the filter allows there. -/
theorem allowedBy_ofToggles_iff (map : SortedMap κ ν) (toggle : ν → Toggle) (choice : κ → ι)
    {has : ι → Bool} (named : κ → FilterKey)
    (covers : ∀ key : FilterKey, key.dimension? = some dimension ↔ ∃ part, named part = key)
    (kept : ∀ part, spec.kept? (named part) = (map.get? part).map toggle)
    (holds : ∀ part, has (choice part) = card.has (named part)) :
    (Choices.ofToggles (map.entries.map fun entry => (choice entry.1, toggle entry.2))).allowedBy
        has ↔ spec.Allows card dimension := by
  have requires := wish_in_dimension_iff covers kept .require nofun
  have excludes := wish_in_dimension_iff covers kept .exclude nofun
  simp only [Choices.allowedBy_iff, Choices.mem_required, Choices.mem_excluded, Allows]
  refine and_congr ?_ (imp_congr ?_ ?_)
  · constructor
    · intro none key inDimension excluded
      obtain ⟨entry, member, isExcluded, rfl⟩ := (excludes key).mp ⟨inDimension, excluded⟩
      rw [← holds entry.1]
      exact none _ ⟨entry, member, isExcluded, rfl⟩
    · rintro none _ ⟨entry, member, isExcluded, rfl⟩
      obtain ⟨inDimension, excluded⟩ := (excludes _).mpr ⟨entry, member, isExcluded, rfl⟩
      rw [holds entry.1]
      exact none _ inDimension excluded
  · constructor
    · rintro ⟨_, entry, member, isRequired, rfl⟩
      exact ⟨named entry.1, (requires _).mpr ⟨entry, member, isRequired, rfl⟩⟩
    · rintro ⟨key, required⟩
      obtain ⟨entry, member, isRequired, rfl⟩ := (requires key).mp required
      exact ⟨choice entry.1, entry, member, isRequired, rfl⟩
  · constructor
    · rintro ⟨_, ⟨entry, member, isRequired, rfl⟩, present⟩
      obtain ⟨inDimension, required⟩ := (requires _).mpr ⟨entry, member, isRequired, rfl⟩
      exact ⟨named entry.1, inDimension, required, (holds entry.1).symm.trans present⟩
    · rintro ⟨key, inDimension, required, present⟩
      obtain ⟨entry, member, isRequired, rfl⟩ := (requires key).mp ⟨inDimension, required⟩
      exact ⟨choice entry.1, ⟨entry, member, isRequired, rfl⟩, (holds entry.1).trans present⟩

/-- The same for a map of toggles whose keys are the choices. -/
theorem allowedBy_entries_iff {toggles : ToggleMap κ} {has : κ → Bool} (named : κ → FilterKey)
    (covers : ∀ key : FilterKey, key.dimension? = some dimension ↔ ∃ part, named part = key)
    (kept : ∀ part, spec.kept? (named part) = toggles.get? part)
    (holds : ∀ part, has part = card.has (named part)) :
    (Choices.ofToggles toggles.entries).allowedBy has ↔ spec.Allows card dimension := by
  have listed : toggles.entries = toggles.entries.map fun entry => (entry.1, entry.2) :=
    (List.map_id _).symm
  rw [listed]
  refine allowedBy_ofToggles_iff toggles id id named covers (fun part => ?_) holds
  rw [kept, Option.map_id_apply]

end

theorem passesRarities_iff : spec.passesRarities card ↔ spec.Allows card .rarity := by
  refine allowedBy_entries_iff .rarity (fun key => ?_) (fun _ => rfl) fun _ => rfl
  cases key <;> simp [FilterKey.dimension?]

theorem passesManaValues_iff : spec.passesManaValues card ↔ spec.Allows card .manaValue := by
  refine allowedBy_entries_iff .manaValue (fun key => ?_) (fun _ => rfl) fun _ => rfl
  cases key <;> simp [FilterKey.dimension?]

theorem passesSets_iff : spec.passesSets card ↔ spec.Allows card .set := by
  refine allowedBy_ofToggles_iff spec.sets (·.value) id .set (fun key => ?_) (fun _ => rfl)
    fun _ => rfl
  cases key <;> simp [FilterKey.dimension?]

theorem passesCardTypes_iff : spec.passesCardTypes card ↔ spec.Allows card .cardType := by
  refine allowedBy_ofToggles_iff spec.cardTypes id lowercase .cardType (fun key => ?_)
    (fun _ => Option.map_id_apply.symm) fun _ => rfl
  cases key <;> simp [FilterKey.dimension?]

theorem passesLayouts_iff : spec.passesLayouts card ↔ spec.Allows card .layout := by
  refine allowedBy_entries_iff .layout (fun key => ?_) (fun _ => rfl) fun _ => rfl
  cases key <;> simp [FilterKey.dimension?]

theorem passesGames_iff : spec.passesGames card ↔ spec.Allows card .game := by
  refine allowedBy_entries_iff .game (fun key => ?_) (fun _ => rfl) fun _ => rfl
  cases key <;> simp [FilterKey.dimension?]

/-- The formats are dimensions of their own, and a format without toggles allows every card. -/
theorem passesLegalities_iff :
    spec.passesLegalities card ↔ ∀ format, spec.Allows card (.legality format) := by
  have inFormat (format : String) {statuses : ToggleMap String}
      (found : spec.legalities.get? format = some statuses) :
      ((Choices.ofToggles (lowered statuses)).allowedBy fun status =>
        (card.statusesIn format).contains status) ↔ spec.Allows card (.legality format) := by
    refine allowedBy_ofToggles_iff statuses id lowercase (.legality format) (fun key => ?_)
      (fun status => ?_) fun _ => rfl
    · cases key <;> simp [FilterKey.dimension?, eq_comm]
    · rw [kept?, found, Option.bind_some, Option.map_id_apply]
  rw [passesLegalities, List.all_eq_true]
  constructor
  · intro every format
    cases found : spec.legalities.get? format with
    | some statuses =>
      exact (inFormat format found).mp (every _ (SortedMap.get?_eq_some_iff.mp found))
    | none =>
      refine allows_of_unset fun key inDimension => ?_
      cases key <;> cases inDimension
      rw [wish, kept?, found, Option.bind_none, Option.getD_none]
  · intro every entry member
    exact (inFormat entry.1 (SortedMap.get?_eq_some_iff.mpr member)).mpr (every entry.1)

/-! ## Subtypes and tags -/

section

variable {κ ι : Type} [OrderKey κ] {toggles : ToggleMap κ} {choice : κ → ι} {has : ι → Bool}
  {named : κ → FilterKey}

/-- The choices from a map of toggles are demanded when every wish in the map is met. -/
theorem demandedOf_ofToggles_iff
    (kept : ∀ part, spec.kept? (named part) = toggles.get? part)
    (holds : ∀ part, has (choice part) = card.has (named part)) :
    (Choices.ofToggles (toggles.entries.map fun entry => (choice entry.1, entry.2))).demandedOf
        has ↔ ∀ part, spec.Meets card (named part) := by
  have requires (part : κ) := wish_iff_mem_entries .require (kept part) nofun
  have excludes (part : κ) := wish_iff_mem_entries .exclude (kept part) nofun
  simp only [Choices.demandedOf_iff, Choices.mem_required, Choices.mem_excluded, Meets, requires,
    excludes, ← holds, forall_and]
  refine and_congr ?_ ?_
  · constructor
    · intro every part required
      exact every _ ⟨_, required, rfl, rfl⟩
    · rintro every _ ⟨⟨part, value⟩, member, rfl, rfl⟩
      exact every part member
  · constructor
    · intro none part excluded
      exact none _ ⟨_, excluded, rfl, rfl⟩
    · rintro none _ ⟨⟨part, value⟩, member, rfl, rfl⟩
      exact none part member

end

theorem passesTags_iff : spec.passesTags card ↔ ∀ tag, spec.Meets card (.tag tag) := by
  have listed : spec.tags.entries = spec.tags.entries.map fun entry => (id entry.1, entry.2) :=
    (List.map_id _).symm
  rw [passesTags, listed]
  exact demandedOf_ofToggles_iff (fun _ => rfl) fun _ => rfl

/-- A type under which no subtypes are kept asks for nothing. -/
theorem passesSubtypes_iff :
    spec.passesSubtypes card ↔
      ∀ cardType subtype, spec.Meets card (.subtype cardType subtype) := by
  have nested (cardType subtype : String) :
      spec.kept? (.subtype cardType subtype) =
        (spec.subtypes.get? cardType).bind fun group => group.get? subtype :=
    rfl
  have inGroup (cardType : String) {group : ToggleMap String}
      (found : spec.subtypes.get? cardType = some group) :
      ((Choices.ofToggles (lowered group)).demandedOf fun subtype =>
        mentions (lowercase cardType) card.typeLine && mentions subtype card.typeLine) ↔
        ∀ subtype, spec.Meets card (.subtype cardType subtype) := by
    refine demandedOf_ofToggles_iff (fun subtype => ?_) fun _ => rfl
    rw [nested, found, Option.bind_some]
  rw [passesSubtypes, List.all_eq_true]
  constructor
  · intro every cardType
    cases found : spec.subtypes.get? cardType with
    | some group =>
      exact (inGroup cardType found).mp (every _ (SortedMap.get?_eq_some_iff.mp found))
    | none =>
      intro subtype
      refine meets_of_unset ?_
      rw [wish, nested, found, Option.bind_none, Option.getD_none]
  · intro every entry member
    exact (inGroup entry.1 (SortedMap.get?_eq_some_iff.mpr member)).mpr (every entry.1)

/-! ## Colors -/

end FilterSpec

theorem Card.passesColors_iff {card : Card} {choices : Choices Color} {multiColor : Toggle} :
    card.passesColors choices multiColor ↔
      (multiColor = .require → 1 < card.colorIdentity.length) ∧
        (multiColor = .exclude → card.colorIdentity.length = 1) ∧
        choices.allowedBy card.hasColor ∧
        (multiColor = .require → choices.excluded = [] →
          ∀ color ∈ choices.required, card.hasColor color) := by
  obtain ⟨required, excluded⟩ := choices
  -- With at most one required color there is no difference between some of them and all of them.
  rcases required with _ | ⟨first, _ | ⟨second, rest⟩⟩
  case nil => cases multiColor <;> simp [passesColors, Choices.allowedBy]
  case cons.nil =>
    cases multiColor <;> simp +contextual [passesColors, Choices.allowedBy, and_assoc]
  case cons.cons =>
    cases multiColor <;> cases excluded <;>
      simp [passesColors, Choices.allowedBy, Toggle.isPositive, and_assoc]
    exact fun _ present _ _ => .inl present

namespace FilterSpec

variable {spec : FilterSpec} {context : FilterContext} {card : Card}

theorem passesColors_iff : spec.passesColors card ↔ spec.AllowsIdentity card := by
  have kept (color : Color) : spec.kept? (.color color) = spec.colors.get? color :=
    rfl
  have required (color : Color) :
      color ∈ (Choices.ofToggles spec.colors.entries).required ↔
        spec.wish (.color color) = .require := by
    rw [wish_iff_mem_entries .require (kept color) nofun]
    simp [Choices.ofToggles, Toggle.isPositive]
  have excluded (color : Color) :
      color ∈ (Choices.ofToggles spec.colors.entries).excluded ↔
        spec.wish (.color color) = .exclude := by
    rw [wish_iff_mem_entries .exclude (kept color) nofun]
    simp [Choices.ofToggles, Toggle.isNegative]
  rw [passesColors, Card.passesColors_iff, Choices.allowedBy_iff, List.eq_nil_iff_forall_not_mem]
  simp only [required, excluded]
  constructor
  · rintro ⟨several, single, ⟨none, some⟩, every⟩
    exact ⟨several, single, none, some, every⟩
  · rintro ⟨several, single, none, some, every⟩
    exact ⟨several, single, ⟨none, some⟩, every⟩

/-! ## All wishes together -/

/-- **A card passes when it passes all that the filter asks apart from its toggles, its identity is
allowed, every dimension allows it, and it meets every wish that stands alone.** -/
theorem accepts_iff :
    spec.accepts context card ↔
      spec.passesFrame context card ∧ spec.AllowsIdentity card ∧
        (∀ dimension, spec.Allows card dimension) ∧
        ∀ key : FilterKey, key.StandsAlone → spec.Meets card key := by
  have dimensions : (∀ dimension, spec.Allows card dimension) ↔
      spec.passesRarities card ∧ spec.passesManaValues card ∧ spec.passesSets card ∧
        spec.passesCardTypes card ∧ spec.passesLegalities card ∧ spec.passesLayouts card ∧
        spec.passesGames card := by
    rw [passesRarities_iff, passesManaValues_iff, passesSets_iff, passesCardTypes_iff,
      passesLegalities_iff, passesLayouts_iff, passesGames_iff]
    constructor
    · intro every
      exact ⟨every _, every _, every _, every _, fun format => every _, every _, every _⟩
    · rintro ⟨rarities, manaValues, sets, cardTypes, legalities, layouts, games⟩ dimension
      cases dimension with
      | rarity => exact rarities
      | manaValue => exact manaValues
      | set => exact sets
      | cardType => exact cardTypes
      | layout => exact layouts
      | game => exact games
      | legality format => exact legalities format
  have alone : (∀ key : FilterKey, key.StandsAlone → spec.Meets card key) ↔
      spec.passesSubtypes card ∧ spec.passesTags card := by
    rw [passesSubtypes_iff, passesTags_iff]
    constructor
    · intro every
      exact ⟨fun _ _ => every _ trivial, fun _ => every _ trivial⟩
    · rintro ⟨subtypes, tags⟩ key standsAlone
      cases key with
      | subtype cardType subtype => exact subtypes cardType subtype
      | tag tag => exact tags tag
      | _ => exact standsAlone.elim
  rw [dimensions, alone, ← passesColors_iff]
  simp only [accepts, passesFrame, Bool.and_eq_true, and_assoc]
  constructor
  · rintro ⟨commander, ignored, search, colors, rarities, manaValues, sets, cardTypes, subtypes,
      legalities, layouts, games, tags, release⟩
    exact ⟨commander, ignored, search, release, colors, rarities, manaValues, sets, cardTypes,
      legalities, layouts, games, subtypes, tags⟩
  · rintro ⟨commander, ignored, search, release, colors, rarities, manaValues, sets, cardTypes,
      legalities, layouts, games, subtypes, tags⟩
    exact ⟨commander, ignored, search, colors, rarities, manaValues, sets, cardTypes, subtypes,
      legalities, layouts, games, tags, release⟩

/-- Without wishes only what a filter asks apart from its toggles counts. -/
theorem accepts_iff_passesFrame (unset : ∀ key, spec.wish key = .unset) :
    spec.accepts context card ↔ spec.passesFrame context card := by
  rw [accepts_iff]
  refine and_iff_left ⟨allowsIdentity_of_unset fun key _ => unset key, fun dimension => ?_,
    fun key _ => meets_of_unset (unset key)⟩
  exact allows_of_unset fun key _ => unset key

/-! ## A single wish -/

section

variable {key : FilterKey}

theorem eq_of_wish (unset : ∀ other, other ≠ key → spec.wish other = .unset) {other : FilterKey}
    {value : Toggle} (wished : spec.wish other = value) (set : value ≠ .unset) : other = key :=
  not_not.mp fun apart => set (wished.symm.trans (unset other apart))

/-- The identity is allowed when the wish is not about it, or else when it is met. A wish for the
number of colors is no wish for a color. -/
theorem allowsIdentity_iff_meets (unset : ∀ other, other ≠ key → spec.wish other = .unset)
    (counted : key ≠ .multiColor) :
    spec.AllowsIdentity card ↔ (key ∈ FilterKey.ofIdentity → spec.Meets card key) := by
  rw [allowsIdentity_iff_of_unset (unset .multiColor (Ne.symm counted))]
  constructor
  · rintro ⟨noneExcluded, someRequired⟩ inside
    obtain ⟨color, -, rfl⟩ := List.mem_map.mp ((List.mem_cons.mp inside).resolve_left counted)
    refine ⟨fun required => ?_, noneExcluded color⟩
    obtain ⟨other, isRequired, present⟩ := someRequired ⟨color, required⟩
    rwa [← FilterKey.color.inj (eq_of_wish unset isRequired (by decide))]
  · intro met
    have isKey {color : Color} {value : Toggle} (wished : spec.wish (.color color) = value)
        (set : value ≠ .unset) : spec.Meets card (.color color) := by
      have here := eq_of_wish unset wished set
      exact here ▸ met (here ▸ FilterKey.color_mem_ofIdentity color)
    refine ⟨fun color excluded => ?_, fun ⟨color, required⟩ => ?_⟩
    · exact (isKey excluded (by decide)).2 excluded
    · exact ⟨color, required, (isKey required (by decide)).1 required⟩

theorem allows_iff_meets (unset : ∀ other, other ≠ key → spec.wish other = .unset)
    (dimension : Dimension) :
    spec.Allows card dimension ↔ (key.dimension? = some dimension → spec.Meets card key) := by
  constructor
  · rintro ⟨none, some⟩ inDimension
    refine ⟨fun required => ?_, none key inDimension⟩
    obtain ⟨other, -, isRequired, present⟩ := some ⟨key, inDimension, required⟩
    rwa [← eq_of_wish unset isRequired (by decide)]
  · refine fun met => ⟨fun other inDimension excluded => ?_, ?_⟩
    · obtain rfl := eq_of_wish unset excluded (by decide)
      exact (met inDimension).2 excluded
    · rintro ⟨other, inDimension, required⟩
      obtain rfl := eq_of_wish unset required (by decide)
      exact ⟨other, inDimension, required, (met inDimension).1 required⟩

theorem forall_standsAlone_iff_meets (unset : ∀ other, other ≠ key → spec.wish other = .unset) :
    (∀ other : FilterKey, other.StandsAlone → spec.Meets card other) ↔
      (key.StandsAlone → spec.Meets card key) := by
  refine ⟨fun every => every key, fun met other standsAlone => ?_⟩
  by_cases here : other = key
  · exact here ▸ met (here ▸ standsAlone)
  · exact meets_of_unset (unset other here)

/-- **A single wish has to be met**, unless it is for the number of colors. -/
theorem accepts_iff_meets (unset : ∀ other, other ≠ key → spec.wish other = .unset)
    (counted : key ≠ .multiColor) :
    spec.accepts context card ↔ spec.passesFrame context card ∧ spec.Meets card key := by
  rw [accepts_iff, allowsIdentity_iff_meets unset counted, forall_standsAlone_iff_meets unset]
  simp only [allows_iff_meets unset]
  refine and_congr_right fun _ => ⟨fun ⟨identity, dimensions, alone⟩ => ?_, fun met => ?_⟩
  · cases found : key.dimension? with
    | some dimension => exact dimensions dimension found
    | none =>
      by_cases standsAlone : key.StandsAlone
      · exact alone standsAlone
      · exact identity ((FilterKey.mem_ofIdentity_iff key).mpr ⟨found, standsAlone⟩)
  · exact ⟨fun _ => met, fun _ _ => met, fun _ => met⟩

end

end FilterSpec

/-- An instant of two colors. -/
def Card.mortify : Card where
  id := "mortify"
  name := "Mortify"
  oracleText := none
  manaValue := 3
  colorIdentity := [.white, .black]
  typeLine := "Instant"
  layout := .normal
  keywords := []
  printings := [⟨"mortify-1", "gpt", "Guildpact", none, .uncommon, none, ∅, [.paper], [], none,
    none, true⟩]
  tags := ["removal"]

/-- No commander is looked for or given, and no card is ignored. -/
def FilterContext.plain : FilterContext where
  selectingCommander := false
  commander := none
  ignored := []
  today := ⟨2024, 1, 1, by decide⟩

end DeckBuilder
