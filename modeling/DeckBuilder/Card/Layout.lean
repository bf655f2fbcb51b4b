import DeckBuilder.OrderCode

/-! # Card layouts

How the faces of a card are printed, and how many images of faces a layout has.
-/

namespace DeckBuilder

/-- A layout; `unknown` stands for every layout that has no name here. -/
inductive Layout where
  | normal
  | split
  | flip
  | transform
  | modalDfc
  | meld
  | leveler
  | classLayout
  | caseLayout
  | saga
  | adventure
  | mutate
  | prototype
  | battle
  | planar
  | scheme
  | vanguard
  | token
  | doubleFacedToken
  | emblem
  | augment
  | host
  | artSeries
  | reversibleCard
  | unknown
deriving DecidableEq, Repr

namespace Layout

/-- All layouts with their names, in the order in which filters list them. -/
def names : List (Layout × String) :=
  [(normal, "normal"), (split, "split"), (flip, "flip"), (transform, "transform"),
    (modalDfc, "modal_dfc"), (meld, "meld"), (leveler, "leveler"), (classLayout, "class"),
    (caseLayout, "case"), (saga, "saga"), (adventure, "adventure"), (mutate, "mutate"),
    (prototype, "prototype"), (battle, "battle"), (planar, "planar"), (scheme, "scheme"),
    (vanguard, "vanguard"), (token, "token"), (doubleFacedToken, "double_faced_token"),
    (emblem, "emblem"), (augment, "augment"), (host, "host"), (artSeries, "art_series"),
    (reversibleCard, "reversible_card"), (unknown, "unknown")]

def name (layout : Layout) : String :=
  ((names.find? fun entry => entry.1 == layout).map (·.2)).getD "unknown"

def ofName (name : String) : Layout :=
  ((names.find? fun entry => entry.2 == name).map (·.1)).getD unknown

theorem ofName_name (layout : Layout) : ofName layout.name = layout := by
  cases layout <;> decide

instance : OrderKey Layout where
  code layout := [names.findIdx fun entry => entry.1 == layout]
  code_injective := by
    intro first second
    cases first <;> cases second <;> decide

/-- How many different images of faces a card has. -/
inductive FaceImages where
  | single
  | double
deriving DecidableEq, Repr

/-- The number of face images; none is known for an unknown layout. -/
def faceImages? : Layout → Option FaceImages
  | transform | modalDfc | doubleFacedToken | artSeries | reversibleCard => some .double
  | unknown => none
  | _ => some .single

/-- Whether both faces have an image. -/
def isDoubleFaced (layout : Layout) : Bool :=
  layout.faceImages? == some .double

end Layout

end DeckBuilder
