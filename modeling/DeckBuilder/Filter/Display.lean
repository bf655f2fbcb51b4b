import DeckBuilder.Filter.Acceptance

/-! # Which printing to show

Among the printings of a card, those that satisfy the set and game choices of the filter are shown;
when there are none, all of them are, so that the card still has something to show.
-/

namespace DeckBuilder

namespace FilterSpec

/-- The code of the only required set. -/
def singleSet? (spec : FilterSpec) : Option String :=
  match spec.setChoices.required with
  | [code] => some code
  | _ => none

/-- Whether a printing satisfies the set and game choices. -/
def suits (spec : FilterSpec) (printing : Printing) : Bool :=
  (spec.setChoices.allowedBy fun code => sameIgnoringAsciiCase printing.set code) &&
    spec.gameChoices.allowedBy fun game => printing.games.contains game

end FilterSpec

namespace Card

/-- The printings that suit the filter, or all of them when none does. -/
def shownPrintings (card : Card) (spec : FilterSpec) : List Printing :=
  let suitable := card.printings.filter spec.suits
  if suitable.isEmpty then card.printings else suitable

/-- The printing to show: the selected one, or else the default one among those that suit the
filter, or else the first of them. -/
def displayedPrinting? (card : Card) (spec : FilterSpec) (selected : Option String) :
    Option Printing :=
  let shown := card.shownPrintings spec
  (selected.bind card.printing?).or
    (((shown.find? (·.isDefault)).or shown.head?).or card.defaultPrinting?)

end Card

end DeckBuilder
