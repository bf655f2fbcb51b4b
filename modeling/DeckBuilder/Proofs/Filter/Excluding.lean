import DeckBuilder.Proofs.Filter.Acceptance
import Mathlib.Data.List.Basic

/-! # Excluding more

A filter that excludes more keeps fewer cards. There is one exception: when more than one color is
wished for and no color is excluded, cards need all of the required colors, and they need only one
of them once some color is excluded.
-/

namespace DeckBuilder

namespace FilterSpec

/-- The second filter differs from the first only in that it excludes keys without preference. -/
structure ExcludesMore (spec narrower : FilterSpec) : Prop where
  search : narrower.search = spec.search
  hideIgnored : narrower.hideIgnored = spec.hideIgnored
  hideUnreleased : narrower.hideUnreleased = spec.hideUnreleased
  wish : ∀ key, narrower.wish key = spec.wish key ∨
    spec.wish key = .unset ∧ narrower.wish key = .exclude

/-- Several colors are required, and cards need all of them. -/
structure DemandsSeveralColors (spec : FilterSpec) : Prop where
  multiColor : spec.get .multiColor = .require
  several : ∃ first second, first ≠ second ∧ spec.get (.color first) = .require ∧
    spec.get (.color second) = .require
  noneExcluded : ∀ color, spec.get (.color color) ≠ .exclude

variable {spec narrower : FilterSpec} {context : FilterContext} {card : Card}

theorem excludesMore_set {key : FilterKey} (unset : spec.get key = .unset) :
    spec.ExcludesMore (spec.set key .exclude) := by
  obtain ⟨search, hideIgnored, hideUnreleased⟩ := spec.frame_set key .exclude
  refine ⟨search, hideIgnored, hideUnreleased, fun other => ?_⟩
  rw [wish_set]
  by_cases here : key.normal = other
  · rw [if_pos here]
    rw [get_eq_wish, here] at unset
    exact .inr ⟨unset, rfl⟩
  · rw [if_neg here]
    exact .inl rfl

namespace ExcludesMore

theorem require_iff (more : spec.ExcludesMore narrower) (key : FilterKey) :
    narrower.wish key = .require ↔ spec.wish key = .require := by
  obtain same | ⟨unset, excluded⟩ := more.wish key
  · rw [same]
  · simp [unset, excluded]

theorem exclude (more : spec.ExcludesMore narrower) (key : FilterKey)
    (excluded : spec.wish key = .exclude) : narrower.wish key = .exclude := by
  obtain same | ⟨unset, _⟩ := more.wish key
  · rw [same, excluded]
  · cases unset.symm.trans excluded

theorem passesFrame (more : spec.ExcludesMore narrower) :
    narrower.passesFrame context card = spec.passesFrame context card := by
  simp only [FilterSpec.passesFrame, passesIgnored, passesSearch, passesRelease, more.search,
    more.hideIgnored, more.hideUnreleased]

theorem meets (more : spec.ExcludesMore narrower) {key : FilterKey}
    (met : narrower.Meets card key) : spec.Meets card key :=
  ⟨fun required => met.1 ((more.require_iff key).mpr required),
    fun excluded => met.2 (more.exclude key excluded)⟩

theorem allows (more : spec.ExcludesMore narrower) {dimension : Dimension}
    (allowed : narrower.Allows card dimension) : spec.Allows card dimension := by
  obtain ⟨none, some⟩ := allowed
  simp only [more.require_iff] at some
  exact ⟨fun key inDimension excluded => none key inDimension (more.exclude key excluded), some⟩

/-- When more colors are excluded, one of the required ones may become enough. So they must not all
have been needed before, unless there is only one, or no color becomes excluded. -/
theorem allowsIdentity (more : spec.ExcludesMore narrower)
    (harmless : ¬ spec.DemandsSeveralColors ∨
      ∀ color, narrower.wish (.color color) = spec.wish (.color color))
    (allowed : narrower.AllowsIdentity card) : spec.AllowsIdentity card where
  several required := allowed.several ((more.require_iff .multiColor).mpr required)
  single excluded := allowed.single (more.exclude .multiColor excluded)
  noneExcluded color excluded := allowed.noneExcluded color (more.exclude _ excluded)
  someRequired := by
    have some := allowed.someRequired
    simpa only [more.require_iff] using some
  allRequired multiColor noneExcluded color required := by
    obtain notSeveral | same := harmless
    · obtain ⟨other, otherRequired, present⟩ :=
        allowed.someRequired ⟨color, (more.require_iff _).mpr required⟩
      have only : other = color := by
        by_contra apart
        exact notSeveral ⟨multiColor, ⟨other, color, apart, (more.require_iff _).mp otherRequired,
          required⟩, noneExcluded⟩
      rwa [← only]
    · refine allowed.allRequired ((more.require_iff .multiColor).mpr multiColor) (fun other => ?_)
        color ((more.require_iff _).mpr required)
      rw [same]
      exact noneExcluded other

theorem accepts (more : spec.ExcludesMore narrower)
    (harmless : ¬ spec.DemandsSeveralColors ∨
      ∀ color, narrower.wish (.color color) = spec.wish (.color color))
    (accepted : narrower.accepts context card) : spec.accepts context card := by
  obtain ⟨frame, identity, dimensions, alone⟩ := accepts_iff.mp accepted
  refine accepts_iff.mpr ⟨more.passesFrame.symm.trans frame, more.allowsIdentity harmless identity,
    fun dimension => more.allows (dimensions dimension), fun key standsAlone => ?_⟩
  exact more.meets (alone key standsAlone)

end ExcludesMore

/-- **Excluding never admits.** Excluding a key without preference keeps no card that was not kept
before, unless the key is a color and all of several colors were needed. -/
theorem filterCards_set_exclude_sublist (spec : FilterSpec) (context : FilterContext)
    (cards : List Card) (key : FilterKey) (unset : spec.get key = .unset)
    (notSeveral : ∀ color, key = .color color → ¬ spec.DemandsSeveralColors) :
    (filterCards cards (spec.set key .exclude) context).Sublist
      (filterCards cards spec context) := by
  refine List.monotone_filter_right cards fun card accepted => ?_
  refine (excludesMore_set unset).accepts ?_ accepted
  by_cases isColor : ∃ color, key = .color color
  · obtain ⟨color, here⟩ := isColor
    exact .inl (notSeveral color here)
  · refine .inr fun color => ?_
    rw [wish_set, if_neg]
    intro same
    cases key <;> cases same
    exact isColor ⟨color, rfl⟩

/-- A wish for white cards. -/
def white : FilterSpec :=
  standard.set (.color .white) .require

theorem filterCards_set_exclude_sublist_white :
    white.get (.color .black) = .unset ∧
      (∀ color, .color .black = FilterKey.color color → ¬ white.DemandsSeveralColors) ∧
      filterCards [.mortify] white .plain = [.mortify] ∧
      (filterCards [.mortify] (white.set (.color .black) .exclude) .plain).Sublist
        (filterCards [.mortify] white .plain) := by
  have unset : white.get (.color .black) = .unset := by decide +kernel
  have notSeveral : ∀ color, .color .black = FilterKey.color color →
      ¬ white.DemandsSeveralColors := by
    intro _ _ several
    cases several.multiColor
  exact ⟨unset, notSeveral, by decide +kernel,
    filterCards_set_exclude_sublist white .plain [.mortify] (.color .black) unset notSeveral⟩

/-- A wish for cards with several colors, white and blue among them. -/
def whiteBlue : FilterSpec :=
  (white.set (.color .blue) .require).set .multiColor .require

/-- Once red is excluded, white is enough. -/
theorem filterCards_set_exclude_red :
    whiteBlue.get (.color .red) = .unset ∧
      ¬ (filterCards [.mortify] (whiteBlue.set (.color .red) .exclude) .plain).Sublist
        (filterCards [.mortify] whiteBlue .plain) := by
  have before : filterCards [.mortify] whiteBlue .plain = [] := by decide +kernel
  have after :
      filterCards [.mortify] (whiteBlue.set (.color .red) .exclude) .plain = [.mortify] := by
    decide +kernel
  refine ⟨by decide +kernel, ?_⟩
  rw [before, after, List.sublist_nil]
  exact List.cons_ne_nil _ _

end FilterSpec

end DeckBuilder
