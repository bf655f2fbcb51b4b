import DeckBuilder.Proofs.Filter.Actions
import DeckBuilder.Proofs.Filter.Wishes

/-! # What filters offer

Clearing a filter leaves what it offers: its keys and the data of its sets. Actions on keys that are
on offer keep all of that, so a filter of some cards that goes through them is cleared to the filter
it came from and never leaves its schema. Such a filter offers the fixed dimensions and everything
that occurs on the cards, except for a rarity or a platform outside the usual ones.
-/

namespace DeckBuilder

/-- The key whose toggle an action changes. -/
def FilterAction.key? : FilterAction → Option FilterKey
  | set key _ | toggle key | toggleBack key => some key
  | search _ | hideIgnored _ | hideUnreleased _ | clear => none

namespace ToggleMap

variable {κ : Type} [OrderKey κ] [DecidableEq κ]

theorem clear_insert {toggles : ToggleMap κ} {key : κ} (offered : (toggles.get? key).isSome)
    (value : Toggle) : clear (toggles.insert key value) = clear toggles := by
  obtain ⟨old, found⟩ := Option.isSome_iff_exists.mp offered
  rw [clear, SortedMap.mapValues_insert]
  apply SortedMap.insert_eq_self
  rw [SortedMap.get?_mapValues, found, Option.map_some]

theorem clear_update_insert {ι : Type} [OrderKey ι] [DecidableEq ι]
    {groups : SortedMap ι (ToggleMap κ)} {outer : ι} {inner : κ}
    (offered : ((groups.get? outer).bind fun group => group.get? inner).isSome) (value : Toggle) :
    (groups.update outer ∅ fun group => group.insert inner value).mapValues clear =
      groups.mapValues clear := by
  obtain ⟨old, found⟩ := Option.isSome_iff_exists.mp offered
  obtain ⟨group, isGroup, inside⟩ := Option.bind_eq_some_iff.mp found
  exact SortedMap.mapValues_update_eq isGroup (clear_insert (Option.isSome_of_eq_some inside) value)

theorem clear_offer (toggles : ToggleMap κ) (key : κ) :
    clear (offer toggles key) = offer (clear toggles) key :=
  SortedMap.mapValues_insertIfNew toggles key .unset _

theorem clear_update_offer {ι : Type} [OrderKey ι] [DecidableEq ι]
    (groups : SortedMap ι (ToggleMap κ)) (outer : ι) (inner : κ) :
    (groups.update outer ∅ fun group => offer group inner).mapValues clear =
      (groups.mapValues clear).update outer ∅ fun group => offer group inner :=
  SortedMap.mapValues_update groups outer ∅ fun group => clear_offer group inner

end ToggleMap

/-- An instant with one printing, whose rarity is none of the usual ones. -/
def Card.shock : Card where
  id := "shock"
  name := "Shock"
  oracleText := none
  manaValue := 1
  colorIdentity := [.red]
  typeLine := "Instant"
  layout := .normal
  keywords := []
  printings := [⟨"shock-1", "sta", "Archive", none, .special, none,
    SortedMap.ofList [("modern", "Legal")], [.paper], [], none, none, true⟩]
  tags := []

namespace FilterSpec

/-- A key is on offer. -/
def Offers (spec : FilterSpec) (key : FilterKey) : Prop :=
  (spec.get? key).isSome

instance (spec : FilterSpec) (key : FilterKey) : Decidable (spec.Offers key) :=
  inferInstanceAs (Decidable ((spec.get? key).isSome = true))

/-! ## Clearing -/

theorem kept?_clear (spec : FilterSpec) (key : FilterKey) :
    spec.clear.kept? key = (spec.kept? key).map fun _ => .unset := by
  cases key <;>
    simp [clear, ToggleMap.clear, kept?, get?, SortedMap.get?_mapValues, Option.bind_map,
      Option.map_bind, Function.comp_def]

theorem get?_clear (spec : FilterSpec) (key : FilterKey) :
    spec.clear.get? key = (spec.get? key).map fun _ => .unset := by
  rw [get?_eq_kept?, kept?_clear, get?_eq_kept?]

/-- Clearing takes no key off offer. -/
theorem offers_clear {spec : FilterSpec} {key : FilterKey} :
    spec.clear.Offers key ↔ spec.Offers key := by
  rw [Offers, Offers, get?_clear, Option.isSome_map]

theorem offers_congr {first second : FilterSpec} (same : first.clear = second.clear)
    {key : FilterKey} : first.Offers key ↔ second.Offers key := by
  rw [← offers_clear, same, offers_clear]

theorem clear_clear (spec : FilterSpec) : spec.clear.clear = spec.clear := by
  simp [clear, ToggleMap.clear, SortedMap.mapValues, Function.comp_def]

theorem hasUsualBuckets_congr {first second : FilterSpec} (same : first.clear = second.clear) :
    first.HasUsualBuckets ↔ second.HasUsualBuckets := by
  have keys (spec : FilterSpec) : spec.clear.manaValues.keys = spec.manaValues.keys :=
    SortedMap.keys_mapValues spec.manaValues _
  rw [HasUsualBuckets, HasUsualBuckets, ← keys first, same, keys second]

/-- Setting a key that is on offer is undone by clearing. -/
theorem clear_set {spec : FilterSpec} {key : FilterKey} (offered : spec.Offers key)
    (value : Toggle) : (spec.set key value).clear = spec.clear := by
  cases key with
  | color | rarity | manaValue | cardType | layout | game | tag =>
    simp only [set, clear, ToggleMap.clear_insert offered]
  | subtype | legality => simp only [set, clear, ToggleMap.clear_update_insert offered]
  | multiColor => rfl
  | set =>
    rw [Offers, get?, Option.isSome_map] at offered
    obtain ⟨filter, found⟩ := Option.isSome_iff_exists.mp offered
    simp only [set, clear]
    rw [SortedMap.mapValues_update_eq found rfl]

/-- What an action does to the toggles of offered keys is undone by clearing. -/
theorem clear_perform {spec : FilterSpec} {action : FilterAction}
    (offered : ∀ key ∈ action.key?, spec.Offers key) :
    (spec.perform action).clear = spec.clear := by
  cases action with
  | set key value => exact clear_set (offered key rfl) value
  | toggle key => exact clear_set (offered key rfl) _
  | toggleBack key => exact clear_set (offered key rfl) _
  | search | hideIgnored | hideUnreleased => rfl
  | clear => exact clear_clear spec

theorem clear_performAll {spec : FilterSpec} {actions : List FilterAction}
    (offered : ∀ action ∈ actions, ∀ key ∈ action.key?, spec.Offers key) :
    (spec.performAll actions).clear = spec.clear := by
  induction actions generalizing spec with
  | nil => rfl
  | cons action actions ih =>
    have cleared := clear_perform (offered action List.mem_cons_self)
    have stillOffered : ∀ later ∈ actions, ∀ key ∈ later.key?, (spec.perform action).Offers key :=
      fun later member key named =>
        (offers_congr cleared).mpr (offered later (List.mem_cons_of_mem _ member) key named)
    exact (ih stillOffered).trans cleared

/-! ## What is on offer -/

/-- What is on offer, when one key has been written into a filter. -/
theorem offers_of_kept? {before after : FilterSpec} {key : FilterKey} {value : Toggle} {here : Prop}
    [Decidable here]
    (kept : after.kept? key.normal = if here then some value else before.kept? key.normal) :
    after.Offers key ↔ here ∨ before.Offers key := by
  rw [Offers, Offers, get?_eq_kept?, get?_eq_kept?, kept]
  by_cases same : here <;> simp [same]

theorem offers_set {spec : FilterSpec} {key other : FilterKey} {value : Toggle} :
    (spec.set key value).Offers other ↔ key.normal = other.normal ∨ spec.Offers other :=
  offers_of_kept? (kept?_set spec key _ value)

theorem offers_offer (spec : FilterSpec) (key : FilterKey) {other : FilterKey} :
    (spec.offer key).Offers other ↔ key.normal = other.normal ∨ spec.Offers other :=
  offers_of_kept? (kept?_offer spec key _)

theorem offers_offerSet (spec : FilterSpec) (printing : Printing) {other : FilterKey} :
    (spec.offerSet printing).Offers other ↔ .set printing.set = other.normal ∨ spec.Offers other :=
  offers_of_kept? (kept?_offerSet spec printing _)

theorem offers_perform (spec : FilterSpec) (action : FilterAction) {other : FilterKey} :
    (spec.perform action).Offers other ↔
      (∃ key ∈ action.key?, key.normal = other.normal) ∨ spec.Offers other := by
  cases named : action.key? with
  | none =>
    have same : (spec.perform action).clear = spec.clear := clear_perform (by simp [named])
    simp [offers_congr same]
  | some key =>
    obtain ⟨value, performed⟩ : ∃ value, spec.perform action = spec.set key value := by
      cases action <;> cases named <;> exact ⟨_, rfl⟩
    simp [performed, offers_set]

theorem offers_performAll (spec : FilterSpec) (actions : List FilterAction) {other : FilterKey} :
    (spec.performAll actions).Offers other ↔
      (∃ action ∈ actions, ∃ key ∈ action.key?, key.normal = other.normal) ∨ spec.Offers other :=
  Lists.foldl_iff (Offers · other) (fun spec action => offers_perform spec action) actions spec

/-- Actions leave what a filter offers as it is exactly when they keep to it. -/
theorem clear_performAll_eq_iff {spec : FilterSpec} {actions : List FilterAction} :
    (spec.performAll actions).clear = spec.clear ↔
      ∀ action ∈ actions, ∀ key ∈ action.key?, spec.Offers key := by
  refine ⟨fun same action member key named => ?_, clear_performAll⟩
  rw [← offers_congr same, offers_performAll]
  exact .inl ⟨action, member, key, named, rfl⟩

/-! ## The filter of some cards -/

theorem clear_offer (spec : FilterSpec) (key : FilterKey) :
    (spec.offer key).clear = spec.clear.offer key := by
  cases key with
  | color | rarity | manaValue | cardType | layout | game | tag =>
    simp only [offer, clear, ToggleMap.clear_offer]
  | subtype => simp only [offer, clear, ToggleMap.clear_update_offer]
  | legality => simp only [offer, clear, ToggleMap.clear_update_offer]
  | multiColor => rfl
  | set => simp only [offer, clear, SortedMap.mapValues_insertIfNew, SetFilter.bare]

theorem clear_offerSet (spec : FilterSpec) (printing : Printing) :
    (spec.offerSet printing).clear = spec.clear.offerSet printing := by
  simp only [offerSet, clear, SortedMap.mapValues_insertIfNew]

theorem clear_offerCard (spec : FilterSpec) (card : Card) :
    (spec.offerCard card).clear = spec.clear.offerCard card := by
  rw [offerCard, offerCard,
    ← List.foldl_hom clear fun spec printing => (clear_offerSet spec printing).symm,
    ← List.foldl_hom clear fun spec key => (clear_offer spec key).symm]

/-- A filter of cards has no preferences. -/
theorem clear_ofCards (cards : List Card) : (ofCards cards).clear = ofCards cards := by
  have unset : standard.clear = standard := by decide +kernel
  rw [ofCards, ← List.foldl_hom clear fun spec card => (clear_offerCard spec card).symm, unset]

/-- **A filter of cards keeps its schema along whole runs.** After any number of actions on keys
that it offers, with any search texts, flags and clearings between them, clearing gives the filter
back and the schema hash is the same. -/
theorem performAll_ofCards_keeps_schema (cards : List Card) (actions : List FilterAction)
    (offered : ∀ action ∈ actions, ∀ key ∈ action.key?, (ofCards cards).Offers key) (count : Nat) :
    ((ofCards cards).performAll (actions.take count)).clear = ofCards cards ∧
      ((ofCards cards).performAll (actions.take count)).schemaHash =
        (ofCards cards).schemaHash := by
  have cleared : ((ofCards cards).performAll (actions.take count)).clear = (ofCards cards).clear :=
    clear_performAll fun action member => offered action (List.mem_of_mem_take member)
  exact ⟨cleared.trans (clear_ofCards cards), schemaHash_congr cleared⟩

/-- Preferences for the instant, taken back once in between. -/
def shockRun : List FilterAction :=
  [.toggle (.cardType "Instant"), .search "o:damage", .set (.legality "modern" "LEGAL") .exclude,
    .hideIgnored true, .clear, .toggleBack (.set "sta"), .toggle .multiColor]

theorem performAll_shockRun_keeps_schema :
    (∀ action ∈ shockRun, ∀ key ∈ action.key?, (ofCards [.shock]).Offers key) ∧
      ((ofCards [.shock]).performAll shockRun).clear = ofCards [.shock] ∧
      ((ofCards [.shock]).performAll shockRun).schemaHash = (ofCards [.shock]).schemaHash := by
  have offered : ∀ action ∈ shockRun, ∀ key ∈ action.key?, (ofCards [.shock]).Offers key := by
    decide +kernel
  exact ⟨offered, performAll_ofCards_keeps_schema [.shock] shockRun offered shockRun.length⟩

end FilterSpec

namespace Card

/-- The value that a key names occurs on the card. A key that names none occurs on every card. -/
def Bears (card : Card) : FilterKey → Prop
  | .color color => color ∈ card.colorIdentity
  | .multiColor => True
  | .rarity rarity => ∃ printing ∈ card.printings, printing.rarity = rarity
  | .manaValue bucket => bucket = .ofManaValue card.manaValue
  | .cardType cardType =>
    ∃ side ∈ Text.sides card.typeLine.toList, cardType ∈ (typeWords side).1
  | .subtype cardType subtype =>
    ∃ side ∈ Text.sides card.typeLine.toList,
      (typeWords side).1.getLast? = some cardType ∧ subtype ∈ (typeWords side).2
  | .set code => ∃ printing ∈ card.printings, printing.set = code
  | .legality format status =>
    ∃ printing ∈ card.printings, (format, status) ∈ printing.legalities.entries
  | .layout layout => card.hasLayout layout
  | .game game => ∃ printing ∈ card.printings, game ∈ printing.games
  | .tag tag => tag ∈ card.tags

instance (card : Card) (key : FilterKey) : Decidable (card.Bears key) := by
  cases key <;> unfold Bears <;> infer_instance

/-- A filter of the card offers the key for its sake, whatever else it offers. -/
def Brings (card : Card) (key : FilterKey) : Prop :=
  (∃ printing ∈ card.printings, .set printing.set = key.normal) ∨
    ∃ brought ∈ card.filterKeys, brought.normal = key.normal

theorem cardType_mem_filterKeys {card : Card} {cardType : String}
    (bears : card.Bears (.cardType cardType)) : .cardType cardType ∈ card.filterKeys := by
  obtain ⟨side, member, word⟩ := bears
  have key : .cardType cardType ∈ sideKeys side :=
    List.mem_append_left _ (List.mem_map_of_mem word)
  simp only [filterKeys, List.mem_append, List.mem_flatMap]
  exact .inl (.inl (.inl ⟨side, member, key⟩))

theorem subtype_mem_filterKeys {card : Card} {cardType subtype : String}
    (bears : card.Bears (.subtype cardType subtype)) :
    .subtype cardType subtype ∈ card.filterKeys := by
  obtain ⟨side, member, last, word⟩ := bears
  have key : .subtype cardType subtype ∈ sideKeys side := by
    rcases words : typeWords side with ⟨types, subtypes⟩
    rw [words] at last word
    simp only [sideKeys, words, last]
    exact List.mem_append_right _ (List.mem_map_of_mem word)
  simp only [filterKeys, List.mem_append, List.mem_flatMap]
  exact .inl (.inl (.inl ⟨side, member, key⟩))

theorem legality_mem_filterKeys {card : Card} {format status : String}
    (bears : card.Bears (.legality format status)) :
    .legality format status ∈ card.filterKeys := by
  obtain ⟨printing, member, entry⟩ := bears
  have key : .legality format status ∈ printingKeys printing :=
    List.mem_append_left _ (List.mem_map_of_mem entry)
  simp only [filterKeys, List.mem_append, List.mem_flatMap]
  exact .inr ⟨printing, member, key⟩

theorem layout_mem_filterKeys {card : Card} {layout : Layout}
    (bears : card.Bears (.layout layout)) : .layout layout ∈ card.filterKeys := by
  simp only [filterKeys, List.mem_append, List.mem_flatMap, List.mem_singleton]
  simp only [Bears, hasLayout, faces, Bool.or_eq_true, beq_iff_eq, List.any_eq_true,
    List.mem_flatMap] at bears
  rcases bears with rfl | ⟨face, ⟨printing, member, inside⟩, named⟩
  · exact .inl (.inl (.inr rfl))
  · have key : .layout layout ∈ printingKeys printing := by
      refine List.mem_append_right _ (List.mem_filterMap.mpr ⟨face, inside, ?_⟩)
      rw [named, Option.map_some]
    exact .inr ⟨printing, member, key⟩

theorem tag_mem_filterKeys {card : Card} {tag : String} (bears : card.Bears (.tag tag)) :
    .tag tag ∈ card.filterKeys := by
  simp only [filterKeys, List.mem_append]
  exact .inl (.inr (List.mem_map_of_mem bears))

end Card

namespace FilterSpec

theorem offers_offerCard (spec : FilterSpec) (card : Card) {key : FilterKey} :
    (spec.offerCard card).Offers key ↔ card.Brings key ∨ spec.Offers key := by
  rw [offerCard,
    Lists.foldl_iff (Offers · key) (fun spec printing => offers_offerSet spec printing),
    Lists.foldl_iff (Offers · key) (fun spec brought => offers_offer spec brought), Card.Brings,
    or_assoc]

/-- A filter of cards offers the fixed dimensions and what each card brings. -/
theorem offers_ofCards (cards : List Card) {key : FilterKey} :
    (ofCards cards).Offers key ↔ (∃ card ∈ cards, card.Brings key) ∨ standard.Offers key :=
  Lists.foldl_iff (Offers · key) (fun spec card => offers_offerCard spec card) cards standard

/-- A filter of cards offers what occurs on one of them. Rarities and platforms are fixed, so that
those outside the usual ones are missing. -/
theorem offers_ofCards_of_bears {cards : List Card} {card : Card} (member : card ∈ cards)
    {key : FilterKey} (bears : card.Bears key) (usualRarity : key ≠ .rarity .special)
    (usualGame : key ≠ .game .other) : (ofCards cards).Offers key := by
  have brought (key : FilterKey) (listed : key ∈ card.filterKeys) : (ofCards cards).Offers key :=
    (offers_ofCards cards).mpr (.inl ⟨card, member, .inr ⟨key, listed, rfl⟩⟩)
  have fixed (key : FilterKey) (isFixed : standard.Offers key) : (ofCards cards).Offers key :=
    (offers_ofCards cards).mpr (.inr isFixed)
  cases key with
  | cardType => exact brought _ (Card.cardType_mem_filterKeys bears)
  | subtype => exact brought _ (Card.subtype_mem_filterKeys bears)
  | legality => exact brought _ (Card.legality_mem_filterKeys bears)
  | layout => exact brought _ (Card.layout_mem_filterKeys bears)
  | tag => exact brought _ (Card.tag_mem_filterKeys bears)
  | set =>
    obtain ⟨printing, inside, rfl⟩ := bears
    exact (offers_ofCards cards).mpr (.inl ⟨card, member, .inl ⟨printing, inside, rfl⟩⟩)
  | multiColor => exact fixed _ rfl
  | color color =>
    apply fixed
    cases color <;> decide
  | rarity rarity =>
    apply fixed
    cases rarity <;> first | decide | exact absurd rfl usualRarity
  | game game =>
    apply fixed
    cases game <;> first | decide | exact absurd rfl usualGame
  | manaValue bucket =>
    apply fixed
    refine SortedMap.isSome_get?_iff.mpr ?_
    rw [keys_manaValues_standard, bears]
    exact ManaBucket.ofManaValue_mem_all _

end FilterSpec

end DeckBuilder
