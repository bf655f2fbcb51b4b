import DeckBuilder.Card.Basic
import DeckBuilder.Filter.ManaBucket
import DeckBuilder.Text.Lowercase
import DeckBuilder.Toggle

/-! # Filter specifications

A specification holds one toggle for every key that a filter offers, in one map per dimension. All
changes go through keys, so that a restored specification and one driven by controls behave alike.
-/

namespace DeckBuilder

/-- The toggle of a set, with what is needed to display the set. -/
structure SetFilter where
  setName : String
  value : Toggle
  releasedAt : Option Date
  setType : Option String
  games : List Game
deriving DecidableEq

/-- The toggle of a set of which only the code is known. -/
def SetFilter.bare : SetFilter :=
  ⟨"", .unset, none, none, []⟩

/-- The address of one toggle. -/
inductive FilterKey where
  | color (color : Color)
  | multiColor
  | rarity (rarity : Rarity)
  | manaValue (bucket : ManaBucket)
  | cardType (cardType : String)
  | subtype (cardType subtype : String)
  | set (code : String)
  | legality (format status : String)
  | layout (layout : Layout)
  | game (game : Game)
  | tag (tag : String)
deriving DecidableEq, Repr

/-- Toggles by key. -/
abbrev ToggleMap (κ : Type) [OrderKey κ] : Type :=
  SortedMap κ Toggle

/-- A filter: a search text, a toggle for every key on offer, and two flags. -/
structure FilterSpec where
  search : String
  colors : ToggleMap Color
  multiColor : Toggle
  rarities : ToggleMap Rarity
  manaValues : ToggleMap ManaBucket
  cardTypes : ToggleMap String
  subtypes : SortedMap String (ToggleMap String)
  sets : SortedMap String SetFilter
  legalities : SortedMap String (ToggleMap String)
  layouts : ToggleMap Layout
  games : ToggleMap Game
  tags : ToggleMap String
  hideIgnored : Bool
  hideUnreleased : Bool
deriving DecidableEq

namespace ToggleMap

variable {κ : Type} [OrderKey κ]

/-- All the given keys, without preference. -/
def ofKeys (keys : List κ) : ToggleMap κ :=
  SortedMap.ofList (keys.map fun key => (key, .unset))

/-- Makes a key available without preference, unless it is. -/
def offer (toggles : ToggleMap κ) (key : κ) : ToggleMap κ :=
  SortedMap.insertIfNew toggles key .unset

/-- Takes back every preference. -/
def clear (toggles : ToggleMap κ) : ToggleMap κ :=
  SortedMap.mapValues toggles fun _ => .unset

end ToggleMap

namespace FilterSpec

/-- The specification that offers no keys. -/
def empty : FilterSpec where
  search := ""
  colors := ∅
  multiColor := .unset
  rarities := ∅
  manaValues := ∅
  cardTypes := ∅
  subtypes := ∅
  sets := ∅
  legalities := ∅
  layouts := ∅
  games := ∅
  tags := ∅
  hideIgnored := false
  hideUnreleased := false

/-- The specification that offers the fixed dimensions: colors, rarities, mana values, games. -/
def standard : FilterSpec :=
  { empty with
    colors := ToggleMap.ofKeys Color.all
    rarities := ToggleMap.ofKeys Rarity.usual
    manaValues := ToggleMap.ofKeys ManaBucket.all
    games := ToggleMap.ofKeys Game.usual }

/-- The toggle at a key, if the key is on offer. Legality statuses are kept in lower case. -/
def get? (spec : FilterSpec) : FilterKey → Option Toggle
  | .color color => spec.colors.get? color
  | .multiColor => some spec.multiColor
  | .rarity rarity => spec.rarities.get? rarity
  | .manaValue bucket => spec.manaValues.get? bucket
  | .cardType cardType => spec.cardTypes.get? cardType
  | .subtype cardType subtype => (spec.subtypes.get? cardType).bind fun group => group.get? subtype
  | .set code => (spec.sets.get? code).map (·.value)
  | .legality format status =>
    (spec.legalities.get? format).bind fun statuses => statuses.get? (lowercase status)
  | .layout layout => spec.layouts.get? layout
  | .game game => spec.games.get? game
  | .tag tag => spec.tags.get? tag

/-- The toggle at a key; a key that is not on offer has no preference. -/
def get (spec : FilterSpec) (key : FilterKey) : Toggle :=
  (spec.get? key).getD .unset

/-- Sets the toggle at a key, which is on offer from then on. -/
def set (spec : FilterSpec) (key : FilterKey) (value : Toggle) : FilterSpec :=
  match key with
  | .color color => { spec with colors := spec.colors.insert color value }
  | .multiColor => { spec with multiColor := value }
  | .rarity rarity => { spec with rarities := spec.rarities.insert rarity value }
  | .manaValue bucket => { spec with manaValues := spec.manaValues.insert bucket value }
  | .cardType cardType => { spec with cardTypes := spec.cardTypes.insert cardType value }
  | .subtype cardType subtype =>
    { spec with
      subtypes := spec.subtypes.update cardType ∅ fun group => group.insert subtype value }
  | .set code =>
    { spec with sets := spec.sets.update code .bare fun filter => { filter with value } }
  | .legality format status =>
    { spec with
      legalities := spec.legalities.update format ∅ fun statuses =>
        statuses.insert (lowercase status) value }
  | .layout layout => { spec with layouts := spec.layouts.insert layout value }
  | .game game => { spec with games := spec.games.insert game value }
  | .tag tag => { spec with tags := spec.tags.insert tag value }

/-- Moves a toggle one step forward. -/
def toggle (spec : FilterSpec) (key : FilterKey) : FilterSpec :=
  spec.set key (spec.get key).next

/-- Moves a toggle one step backward. -/
def toggleBack (spec : FilterSpec) (key : FilterKey) : FilterSpec :=
  spec.set key (spec.get key).prev

/-- Takes back every preference and keeps the keys on offer. -/
def clear (spec : FilterSpec) : FilterSpec where
  search := ""
  colors := ToggleMap.clear spec.colors
  multiColor := .unset
  rarities := ToggleMap.clear spec.rarities
  manaValues := ToggleMap.clear spec.manaValues
  cardTypes := ToggleMap.clear spec.cardTypes
  subtypes := spec.subtypes.mapValues ToggleMap.clear
  sets := spec.sets.mapValues fun filter => { filter with value := .unset }
  legalities := spec.legalities.mapValues ToggleMap.clear
  layouts := ToggleMap.clear spec.layouts
  games := ToggleMap.clear spec.games
  tags := ToggleMap.clear spec.tags
  hideIgnored := false
  hideUnreleased := false

end FilterSpec

/-- A change that a user makes to a filter. -/
inductive FilterAction where
  | set (key : FilterKey) (value : Toggle)
  | toggle (key : FilterKey)
  | toggleBack (key : FilterKey)
  | search (text : String)
  | hideIgnored (hide : Bool)
  | hideUnreleased (hide : Bool)
  | clear
deriving DecidableEq, Repr

/-- Makes a change. -/
def FilterSpec.perform (spec : FilterSpec) : FilterAction → FilterSpec
  | .set key value => spec.set key value
  | .toggle key => spec.toggle key
  | .toggleBack key => spec.toggleBack key
  | .search text => { spec with search := text }
  | .hideIgnored hide => { spec with hideIgnored := hide }
  | .hideUnreleased hide => { spec with hideUnreleased := hide }
  | .clear => spec.clear

end DeckBuilder
