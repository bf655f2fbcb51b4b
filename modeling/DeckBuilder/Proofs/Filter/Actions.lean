import DeckBuilder.Filter.Schema
import DeckBuilder.Proofs.Filter.RoundTrip

/-! # The buckets of filters that users build

A filter comes from the fixed dimensions or from some cards and goes through actions. It has the
buckets that filters offer and those that the actions name, since cards bring none and no action
takes a key away.
-/

namespace DeckBuilder

/-- The mana value bucket that a key addresses. -/
def FilterKey.bucket? : FilterKey → Option ManaBucket
  | manaValue bucket => some bucket
  | color _ | multiColor | rarity _ | cardType _ | subtype _ _ | set _ | legality _ _ | layout _
  | game _ | tag _ => none

/-- A key that a card brings into a filter by its type line, its layouts, its legalities or its
tags. The sets come with their printings. -/
def FilterKey.IsListed : FilterKey → Prop
  | cardType _ | subtype _ _ | legality _ _ | layout _ | tag _ => True
  | color _ | multiColor | rarity _ | manaValue _ | set _ | game _ => False

/-- The mana value bucket that an action changes. -/
def FilterAction.bucket? : FilterAction → Option ManaBucket
  | set key _ | toggle key | toggleBack key => key.bucket?
  | search _ | hideIgnored _ | hideUnreleased _ | clear => none

namespace FilterSpec

/-- A filter after some actions. -/
def performAll (spec : FilterSpec) (actions : List FilterAction) : FilterSpec :=
  actions.foldl perform spec

variable {bucket : ManaBucket}

theorem mem_keys_manaValues_set (spec : FilterSpec) (key : FilterKey) (value : Toggle) :
    bucket ∈ (spec.set key value).manaValues.keys ↔
      key.bucket? = some bucket ∨ bucket ∈ spec.manaValues.keys := by
  cases key with
  | manaValue other =>
    rw [set, SortedMap.mem_keys_insert, FilterKey.bucket?, Option.some.injEq, eq_comm]
  | color | multiColor | rarity | cardType | subtype | set | legality | layout | game | tag =>
    simp [set, FilterKey.bucket?]

theorem mem_keys_manaValues_perform (spec : FilterSpec) (action : FilterAction) :
    bucket ∈ (spec.perform action).manaValues.keys ↔
      action.bucket? = some bucket ∨ bucket ∈ spec.manaValues.keys := by
  cases action with
  | set key value => exact mem_keys_manaValues_set spec key value
  | toggle key => exact mem_keys_manaValues_set spec key _
  | toggleBack key => exact mem_keys_manaValues_set spec key _
  | search | hideIgnored | hideUnreleased => simp [perform, FilterAction.bucket?]
  | clear =>
    simp [perform, clear, ToggleMap.clear, SortedMap.keys_mapValues, FilterAction.bucket?]

theorem mem_keys_manaValues_performAll (spec : FilterSpec) (actions : List FilterAction) :
    bucket ∈ (spec.performAll actions).manaValues.keys ↔
      bucket ∈ actions.filterMap FilterAction.bucket? ∨ bucket ∈ spec.manaValues.keys := by
  rw [List.mem_filterMap]
  exact Lists.foldl_iff (bucket ∈ ·.manaValues.keys)
    (fun spec action => mem_keys_manaValues_perform spec action) actions spec

/-! ## Filters of cards -/

theorem manaValues_offer (spec : FilterSpec) {key : FilterKey} (other : key.bucket? = none) :
    (spec.offer key).manaValues = spec.manaValues := by
  cases key with
  | manaValue => cases other
  | color | multiColor | rarity | cardType | subtype | set | legality | layout | game | tag => rfl

/-- What a card brings besides its sets are types, subtypes, legalities, layouts and tags. -/
theorem isListed_of_mem_filterKeys {card : Card} {key : FilterKey}
    (member : key ∈ card.filterKeys) : key.IsListed := by
  have side : ∀ side, ∀ key ∈ Card.sideKeys side, key.IsListed := by
    intro side key member
    unfold Card.sideKeys at member
    rcases List.mem_append.mp member with typed | subtyped
    · obtain ⟨_, -, rfl⟩ := List.mem_map.mp typed
      trivial
    · split at subtyped
      · obtain ⟨_, -, rfl⟩ := List.mem_map.mp subtyped
        trivial
      · cases subtyped
  have printing : ∀ printing, ∀ key ∈ Card.printingKeys printing, key.IsListed := by
    intro printing key member
    rcases List.mem_append.mp member with legal | laidOut
    · obtain ⟨_, -, rfl⟩ := List.mem_map.mp legal
      trivial
    · obtain ⟨face, -, named⟩ := List.mem_filterMap.mp laidOut
      obtain ⟨_, -, rfl⟩ := Option.map_eq_some_iff.mp named
      trivial
  simp only [Card.filterKeys, List.mem_append, List.mem_flatMap, List.mem_singleton,
    List.mem_map] at member
  rcases member with ((⟨_, -, here⟩ | rfl) | ⟨_, -, rfl⟩) | ⟨_, -, here⟩
  · exact side _ key here
  · trivial
  · trivial
  · exact printing _ key here

/-- Cards bring no buckets into a filter. -/
theorem bucket?_of_mem_filterKeys {card : Card} {key : FilterKey} (member : key ∈ card.filterKeys) :
    key.bucket? = none := by
  have listed := isListed_of_mem_filterKeys member
  cases key with
  | manaValue => exact listed.elim
  | color | multiColor | rarity | cardType | subtype | set | legality | layout | game | tag => rfl

theorem manaValues_offerCard (spec : FilterSpec) (card : Card) :
    (spec.offerCard card).manaValues = spec.manaValues := by
  have sets : ∀ start : FilterSpec, ∀ printing ∈ card.printings,
      (start.offerSet printing).manaValues = start.manaValues :=
    fun _ _ _ => rfl
  rw [offerCard, Lists.foldl_kept manaValues sets, Lists.foldl_kept manaValues]
  exact fun spec key member => manaValues_offer spec (bucket?_of_mem_filterKeys member)

theorem manaValues_ofCards (cards : List Card) :
    (ofCards cards).manaValues = standard.manaValues :=
  Lists.foldl_kept manaValues (fun spec card _ => manaValues_offerCard spec card) standard

theorem keys_manaValues_standard : standard.manaValues.keys = ManaBucket.all := by
  decide +kernel

theorem hasUsualBuckets_ofCards (cards : List Card) : (ofCards cards).HasUsualBuckets := by
  intro bucket member
  rwa [manaValues_ofCards, keys_manaValues_standard] at member

/-- A filter of cards keeps to usual buckets until an action names another one. -/
theorem hasUsualBuckets_performAll_ofCards (cards : List Card) (actions : List FilterAction) :
    ((ofCards cards).performAll actions).HasUsualBuckets ↔
      ∀ bucket ∈ actions.filterMap FilterAction.bucket?, bucket ∈ ManaBucket.all := by
  simp only [HasUsualBuckets, mem_keys_manaValues_performAll, manaValues_ofCards,
    keys_manaValues_standard]
  constructor
  · intro usual bucket named
    exact usual bucket (.inl named)
  · rintro usual bucket (named | fixed)
    · exact usual bucket named
    · exact fixed

end FilterSpec

end DeckBuilder
