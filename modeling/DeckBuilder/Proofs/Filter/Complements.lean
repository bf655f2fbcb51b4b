import DeckBuilder.Proofs.Filter.Acceptance
import DeckBuilder.Proofs.Filter.Schema
import DeckBuilder.Proofs.Text.Lowercase

/-! # Filters with one wish

A filter without wishes that gets one asks for nothing else. Required or excluded, the wish is about
the same property of a card, so that the cards fall into those that are kept when it is required and
those that are kept when it is excluded. The number of colors is the exception: a card without any
color has neither several nor a single one.
-/

namespace DeckBuilder

namespace Card

/-- It does not matter in which case a status is written. -/
theorem has_normal (card : Card) (key : FilterKey) : card.has key.normal = card.has key := by
  cases key with
  | legality format status => rw [FilterKey.normal, has, has, lowercase_lowercase]
  | _ => rfl

end Card

namespace FilterSpec

/-- The filter asks for nothing. -/
structure IsIdle (spec : FilterSpec) : Prop where
  search : spec.search = ""
  hideIgnored : spec.hideIgnored = false
  hideUnreleased : spec.hideUnreleased = false
  unset : ∀ key, spec.wish key = .unset

/-- A cleared filter asks for nothing. -/
theorem isIdle_clear (spec : FilterSpec) : spec.clear.IsIdle where
  search := rfl
  hideIgnored := rfl
  hideUnreleased := rfl
  unset key := by
    rw [wish, kept?_clear]
    cases spec.kept? key <;> rfl

theorem isIdle_ofCards (cards : List Card) : (ofCards cards).IsIdle :=
  clear_ofCards cards ▸ isIdle_clear (ofCards cards)

variable {spec : FilterSpec} {context : FilterContext} {card : Card} {key : FilterKey}

/-- A filter without search text and flags leaves it to the commander. -/
theorem IsIdle.passesFrame_set (idle : spec.IsIdle) (key : FilterKey) (value : Toggle) :
    (spec.set key value).passesFrame context card = passesCommander context card := by
  obtain ⟨search, hideIgnored, hideUnreleased⟩ := frame_set spec key value
  have silent : Query.parseAll "".toList = [] := rfl
  rw [passesFrame, passesIgnored, passesSearch, passesRelease, search, hideIgnored, hideUnreleased,
    idle.search, idle.hideIgnored, idle.hideUnreleased, silent]
  simp

/-- With one key set, only what is wished there counts. -/
theorem accepts_set_iff (idle : spec.IsIdle) (counted : key ≠ .multiColor) (value : Toggle) :
    (spec.set key value).accepts context card ↔
      passesCommander context card ∧ (spec.set key value).Meets card key.normal := by
  have unset (other : FilterKey) (apart : other ≠ key.normal) :
      (spec.set key value).wish other = .unset := by
    rw [wish_set, if_neg (Ne.symm apart), idle.unset]
  have normalCounted : key.normal ≠ .multiColor := by
    cases key <;> simp_all [FilterKey.normal]
  rw [accepts_iff_meets unset normalCounted, idle.passesFrame_set]

/-- Required, a key keeps the cards that have what it names; excluded, it keeps the others. -/
theorem accepts_set_eq (idle : spec.IsIdle) (counted : key ≠ .multiColor)
    (unled : passesCommander context card) :
    (spec.set key .require).accepts context card = card.has key ∧
      (spec.set key .exclude).accepts context card = !card.has key := by
  have asked (value : Toggle) : (spec.set key value).accepts context card ↔
      (value = .require → card.has key) ∧ (value = .exclude → card.has key = false) := by
    rw [accepts_set_iff idle counted, Meets, wish_set, if_pos rfl, card.has_normal]
    exact and_iff_right unled
  constructor
  · rw [Bool.eq_iff_iff, asked]
    simp
  · rw [Bool.eq_iff_iff, asked]
    simp

/-- **A required key and an excluded one are complements.** In a filter without any other wish, and
when no commander is looked for or given, requiring a key keeps the cards that have what it names
and excluding it keeps the others. So every card is kept by exactly one of the two filters. -/
theorem filterCards_set_partition (spec : FilterSpec) (context : FilterContext) (cards : List Card)
    (key : FilterKey) (idle : spec.IsIdle) (unselected : context.selectingCommander = false)
    (unled : context.commander = none) (counted : key ≠ .multiColor) :
    cards.partition (·.has key) =
        (filterCards cards (spec.set key .require) context,
          filterCards cards (spec.set key .exclude) context) ∧
      (filterCards cards (spec.set key .require) context ++
        filterCards cards (spec.set key .exclude) context).Perm cards ∧
      ∀ card ∈ cards,
        Xor (card ∈ filterCards cards (spec.set key .require) context)
          (card ∈ filterCards cards (spec.set key .exclude) context) := by
  have free (card : Card) : passesCommander context card := by
    rw [passesCommander, unselected, unled]
    rfl
  have required : filterCards cards (spec.set key .require) context = cards.filter (·.has key) :=
    List.filter_congr fun card _ => (accepts_set_eq idle counted (free card)).1
  have excluded : filterCards cards (spec.set key .exclude) context = cards.filter (!·.has key) :=
    List.filter_congr fun card _ => (accepts_set_eq idle counted (free card)).2
  rw [required, excluded]
  refine ⟨List.partition_eq_filter_filter .., List.filter_append_perm .., fun card member => ?_⟩
  cases present : card.has key <;> simp [Xor, member, present]

/-- The format and the status are written in another case than on the second card. -/
theorem filterCards_set_partition_mortify :
    (standard.IsIdle ∧ FilterContext.plain.selectingCommander = false ∧
        FilterContext.plain.commander = none ∧
        FilterKey.legality "Modern" "LEGAL" ≠ .multiColor) ∧
      ∀ card ∈ [.mortify, .shock],
        Xor (card ∈ filterCards [.mortify, .shock]
            (standard.set (.legality "Modern" "LEGAL") .require) .plain)
          (card ∈ filterCards [.mortify, .shock]
            (standard.set (.legality "Modern" "LEGAL") .exclude) .plain) := by
  have idle : standard.IsIdle := isIdle_ofCards []
  obtain ⟨-, -, apart⟩ := filterCards_set_partition standard .plain [.mortify, .shock]
    (.legality "Modern" "LEGAL") idle rfl rfl (by decide)
  exact ⟨⟨idle, rfl, rfl, by decide⟩, apart⟩

end FilterSpec

end DeckBuilder
