import DeckBuilder.Filter.Display
import DeckBuilder.Proofs.Filter.Acceptance

/-! # Printings under a filter

A filter asks for a set and for a game apart from one another, and different printings of a card may
answer. What is shown of an accepted card suits the filter all the same, except when sets and games
are both required and no printing has one of each: then all printings are shown, though none of
them suits.
-/

namespace DeckBuilder

/-! ## Cards in one printing -/

/-- The card as if it had no other printing. -/
def Card.inPrinting (card : Card) (printing : Printing) : Card :=
  { card with printings := [printing] }

/-- The keys of the dimension name something that each printing has or has not. -/
def Dimension.OfPrintings : Dimension → Prop
  | set | game => True
  | rarity | manaValue | cardType | layout | legality _ => False

theorem Card.has_iff_exists_inPrinting {card : Card} {key : FilterKey} {dimension : Dimension}
    (inDimension : key.dimension? = some dimension) (ofPrintings : dimension.OfPrintings) :
    card.has key ↔ ∃ printing ∈ card.printings, (card.inPrinting printing).has key := by
  cases key with
  | set | game => simp [has, inPrinting]
  | color | multiColor | subtype | tag => cases inDimension
  | rarity | manaValue | cardType | layout | legality =>
    cases inDimension
    exact ofPrintings.elim

namespace FilterSpec

variable {spec : FilterSpec} {context : FilterContext} {card : Card} {printing : Printing}

/-- Something is required in the dimension. -/
def Requires (spec : FilterSpec) (dimension : Dimension) : Prop :=
  ∃ key : FilterKey, key.dimension? = some dimension ∧ spec.wish key = .require

/-- The card has something that is required in the dimension. -/
def Satisfies (spec : FilterSpec) (card : Card) (dimension : Dimension) : Prop :=
  ∃ key : FilterKey, key.dimension? = some dimension ∧ spec.wish key = .require ∧ card.has key

theorem requires_set_iff : spec.Requires .set ↔ ∃ code, spec.get (.set code) = .require := by
  constructor
  · rintro ⟨key, inDimension, required⟩
    cases key <;> cases inDimension
    exact ⟨_, required⟩
  · rintro ⟨code, required⟩
    exact ⟨.set code, rfl, required⟩

theorem requires_game_iff : spec.Requires .game ↔ ∃ game, spec.get (.game game) = .require := by
  constructor
  · rintro ⟨key, inDimension, required⟩
    cases key <;> cases inDimension
    exact ⟨_, required⟩
  · rintro ⟨game, required⟩
    exact ⟨.game game, rfl, required⟩

theorem satisfies_set_inPrinting_iff :
    spec.Satisfies (card.inPrinting printing) .set ↔
      ∃ code, spec.get (.set code) = .require ∧ sameIgnoringAsciiCase printing.set code := by
  constructor
  · rintro ⟨key, inDimension, required, present⟩
    cases key <;> cases inDimension
    exact ⟨_, required, by simpa [Card.has, Card.inPrinting] using present⟩
  · rintro ⟨code, required, same⟩
    exact ⟨.set code, rfl, required, by simpa [Card.has, Card.inPrinting] using same⟩

theorem satisfies_game_inPrinting_iff :
    spec.Satisfies (card.inPrinting printing) .game ↔
      ∃ game ∈ printing.games, spec.get (.game game) = .require := by
  constructor
  · rintro ⟨key, inDimension, required, present⟩
    cases key <;> cases inDimension
    exact ⟨_, by simpa [Card.has, Card.inPrinting] using present, required⟩
  · rintro ⟨game, inside, required⟩
    exact ⟨.game game, rfl, required, by simpa [Card.has, Card.inPrinting] using inside⟩

/-- A printing suits a filter when a card with no other printing passes the set and game choices. -/
theorem suits_iff (card : Card) :
    spec.suits printing ↔
      spec.Allows (card.inPrinting printing) .set ∧
        spec.Allows (card.inPrinting printing) .game := by
  rw [← passesSets_iff, ← passesGames_iff]
  simp [suits, passesSets, passesGames, Card.inPrinting]

/-! ## From the card to its printings -/

section

variable {dimension : Dimension}

/-- What is excluded for a card is excluded for every printing. -/
theorem allows_inPrinting (allowed : spec.Allows card dimension)
    (ofPrintings : dimension.OfPrintings) (member : printing ∈ card.printings)
    (satisfied : spec.Requires dimension → spec.Satisfies (card.inPrinting printing) dimension) :
    spec.Allows (card.inPrinting printing) dimension := by
  refine ⟨fun key inDimension excluded => ?_, satisfied⟩
  have absent := allowed.1 key inDimension excluded
  rw [← Bool.not_eq_true] at absent ⊢
  intro present
  apply absent
  exact (Card.has_iff_exists_inPrinting inDimension ofPrintings).mpr ⟨printing, member, present⟩

/-- What is required of a card is required of one of its printings. -/
theorem exists_satisfies_inPrinting (allowed : spec.Allows card dimension)
    (ofPrintings : dimension.OfPrintings) (required : spec.Requires dimension) :
    ∃ printing ∈ card.printings, spec.Satisfies (card.inPrinting printing) dimension := by
  obtain ⟨key, inDimension, isRequired, present⟩ := allowed.2 required
  obtain ⟨printing, member, has⟩ :=
    (Card.has_iff_exists_inPrinting inDimension ofPrintings).mp present
  exact ⟨printing, member, key, inDimension, isRequired, has⟩

end

/-- Sets and games are both required, and no printing is in a required set and in a required game at
once. -/
structure Scatters (spec : FilterSpec) (card : Card) : Prop where
  set : ∃ code, spec.get (.set code) = .require
  game : ∃ game, spec.get (.game game) = .require
  apart : ∀ printing ∈ card.printings,
    ¬ ((∃ code, spec.get (.set code) = .require ∧ sameIgnoringAsciiCase printing.set code) ∧
      ∃ game ∈ printing.games, spec.get (.game game) = .require)

theorem Scatters.not_suits (scatters : spec.Scatters card) (member : printing ∈ card.printings) :
    ¬ spec.suits printing := by
  intro suited
  obtain ⟨sets, games⟩ := (suits_iff card).mp suited
  refine scatters.apart printing member ⟨?_, ?_⟩
  · exact satisfies_set_inPrinting_iff.mp (sets.2 (requires_set_iff.mpr scatters.set))
  · exact satisfies_game_inPrinting_iff.mp (games.2 (requires_game_iff.mpr scatters.game))

/-- Some printing suits when the card passes and no printing would have to be in two places. -/
theorem exists_suits (sets : spec.Allows card .set) (games : spec.Allows card .game)
    (occupied : card.printings ≠ []) (together : ¬ spec.Scatters card) :
    ∃ printing ∈ card.printings, spec.suits printing := by
  have suited {printing : Printing} (member : printing ∈ card.printings)
      (inSet : spec.Requires .set → spec.Satisfies (card.inPrinting printing) .set)
      (inGame : spec.Requires .game → spec.Satisfies (card.inPrinting printing) .game) :
      ∃ printing ∈ card.printings, spec.suits printing :=
    ⟨printing, member, (suits_iff card).mpr
      ⟨allows_inPrinting sets trivial member inSet, allows_inPrinting games trivial member inGame⟩⟩
  by_cases setRequired : spec.Requires .set
  · by_cases gameRequired : spec.Requires .game
    · obtain ⟨printing, member, inSet, inGame⟩ : ∃ printing ∈ card.printings,
          spec.Satisfies (card.inPrinting printing) .set ∧
            spec.Satisfies (card.inPrinting printing) .game := by
        by_contra none
        refine together ⟨requires_set_iff.mp setRequired, requires_game_iff.mp gameRequired, ?_⟩
        rintro printing member ⟨inSet, inGame⟩
        exact none ⟨printing, member, satisfies_set_inPrinting_iff.mpr inSet,
          satisfies_game_inPrinting_iff.mpr inGame⟩
      exact suited member (fun _ => inSet) fun _ => inGame
    · obtain ⟨printing, member, inSet⟩ := exists_satisfies_inPrinting sets trivial setRequired
      exact suited member (fun _ => inSet) fun required => absurd required gameRequired
  · by_cases gameRequired : spec.Requires .game
    · obtain ⟨printing, member, inGame⟩ := exists_satisfies_inPrinting games trivial gameRequired
      exact suited member (fun required => absurd required setRequired) fun _ => inGame
    · obtain ⟨printing, member⟩ := List.exists_mem_of_ne_nil _ occupied
      exact suited member (fun required => absurd required setRequired)
        fun required => absurd required gameRequired

end FilterSpec

/-! ## What is shown -/

namespace Card

variable {card : Card} {spec : FilterSpec}

theorem shownPrintings_eq_filter (suited : ∃ printing ∈ card.printings, spec.suits printing) :
    card.shownPrintings spec = card.printings.filter spec.suits := by
  have found : card.printings.filter spec.suits ≠ [] := by
    simpa [List.filter_eq_nil_iff] using suited
  rw [shownPrintings, if_neg (by simpa [List.isEmpty_iff] using found)]

theorem shownPrintings_eq_all (none : ∀ printing ∈ card.printings, ¬ spec.suits printing) :
    card.shownPrintings spec = card.printings := by
  rw [shownPrintings, List.filter_eq_nil_iff.mpr none, List.isEmpty_nil, if_pos rfl]

/-- Without a selection one of the shown printings is displayed. -/
theorem exists_displayedPrinting? (occupied : card.shownPrintings spec ≠ []) :
    ∃ printing ∈ card.shownPrintings spec, card.displayedPrinting? spec none = some printing := by
  obtain ⟨first, rest, shown⟩ := List.exists_cons_of_ne_nil occupied
  rw [displayedPrinting?, Option.bind_none, Option.none_or, shown]
  cases found : (first :: rest).find? (·.isDefault) with
  | none => exact ⟨first, List.mem_cons_self, rfl⟩
  | some printing => exact ⟨printing, List.mem_of_find?_eq_some found, rfl⟩

end Card

namespace FilterSpec

/-- **The printings that are shown of an accepted card suit the filter exactly when the filter does
not scatter the card over its printings.** Then they are all that suit, and the printing that is
displayed without a selection is one of them. -/
theorem suits_shownPrintings_iff (spec : FilterSpec) (context : FilterContext) (cards : List Card)
    {card : Card} (kept : card ∈ filterCards cards spec context) :
    ((∀ printing ∈ card.shownPrintings spec, spec.suits printing) ↔ ¬ spec.Scatters card) ∧
      (¬ spec.Scatters card →
        card.shownPrintings spec = card.printings.filter spec.suits ∧
          (card.printings ≠ [] →
            ∃ printing, card.displayedPrinting? spec none = some printing ∧
              spec.suits printing)) := by
  obtain ⟨-, -, dimensions, -⟩ := accepts_iff.mp (List.mem_filter.mp kept).2
  have shown (together : ¬ spec.Scatters card) :
      card.shownPrintings spec = card.printings.filter spec.suits := by
    by_cases occupied : card.printings = []
    · simp [Card.shownPrintings, occupied]
    · exact Card.shownPrintings_eq_filter
        (exists_suits (dimensions .set) (dimensions .game) occupied together)
  have suited (together : ¬ spec.Scatters card) :
      ∀ printing ∈ card.shownPrintings spec, spec.suits printing := by
    intro printing member
    rw [shown together] at member
    exact (List.mem_filter.mp member).2
  refine ⟨⟨fun every scatters => ?_, suited⟩, fun together => ⟨shown together, fun occupied => ?_⟩⟩
  · obtain ⟨printing, member, -⟩ := exists_satisfies_inPrinting (dimensions .set) trivial
      (requires_set_iff.mpr scatters.set)
    rw [Card.shownPrintings_eq_all fun printing member => scatters.not_suits member] at every
    exact scatters.not_suits member (every printing member)
  · have someShown : card.shownPrintings spec ≠ [] := by
      simpa [shown together, List.filter_eq_nil_iff] using
        exists_suits (dimensions .set) (dimensions .game) occupied together
    obtain ⟨printing, isShown, isDisplayed⟩ := Card.exists_displayedPrinting? someShown
    exact ⟨printing, isDisplayed, suited together printing isShown⟩

/-- A wish for printings in one set and in one game. -/
def mastersOnline : FilterSpec :=
  (standard.set (.set "ima") .require).set (.game .arena) .require

end FilterSpec

/-- A printing of the instant in one set and one game. -/
def Printing.mortifyIn (set : String) (game : Game) : Printing :=
  ⟨"mortify-" ++ set, set, "", none, .uncommon, none, ∅, [game], [], none, none, false⟩

/-- The instant in two printings, of which the second one suits. -/
def Card.mortifyTwice : Card :=
  { Card.mortify with printings := [.mortifyIn "gpt" .paper, .mortifyIn "IMA" .arena] }

/-- The instant in two printings, of which one is in the set and the other one in the game. -/
def Card.mortifyScattered : Card :=
  { Card.mortify with printings := [.mortifyIn "ima" .paper, .mortifyIn "gpt" .arena] }

namespace FilterSpec

theorem suits_shownPrintings_iff_mortifyTwice :
    Card.mortifyTwice ∈ filterCards [.mortifyTwice] mastersOnline .plain ∧
      ¬ mastersOnline.Scatters .mortifyTwice ∧
      ∃ printing, Card.mortifyTwice.displayedPrinting? mastersOnline none = some printing ∧
        mastersOnline.suits printing := by
  have kept : Card.mortifyTwice ∈ filterCards [.mortifyTwice] mastersOnline .plain := by
    decide +kernel
  have together : ¬ mastersOnline.Scatters .mortifyTwice := by
    intro scatters
    refine scatters.apart (.mortifyIn "IMA" .arena) (by decide +kernel) ⟨⟨"ima", ?_⟩, .arena, ?_⟩
    · decide +kernel
    · decide +kernel
  obtain ⟨-, shown⟩ := suits_shownPrintings_iff mastersOnline .plain [.mortifyTwice] kept
  exact ⟨kept, together, (shown together).2 (List.cons_ne_nil _ _)⟩

/-- The card is kept for the sake of two printings, and the one that is displayed does not suit. -/
theorem suits_shownPrintings_mortifyScattered :
    Card.mortifyScattered ∈ filterCards [.mortifyScattered] mastersOnline .plain ∧
      Printing.mortifyIn "ima" .paper ∈ Card.mortifyScattered.shownPrintings mastersOnline ∧
      Card.mortifyScattered.displayedPrinting? mastersOnline none =
        some (.mortifyIn "ima" .paper) ∧
      ¬ mastersOnline.suits (.mortifyIn "ima" .paper) := by
  decide +kernel

end FilterSpec

end DeckBuilder
