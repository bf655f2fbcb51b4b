/-! # Toggles

The three-state flag behind every filter control: no preference, required, or excluded. Controls
walk the states in one cycle, forward or backward.
-/

namespace DeckBuilder

/-- A wish about one property of a card. -/
inductive Toggle where
  | unset
  | require
  | exclude
deriving DecidableEq, Repr, Inhabited

namespace Toggle

/-- The forward step of a control. -/
def next : Toggle → Toggle
  | unset => require
  | require => exclude
  | exclude => unset

/-- The backward step of a control. -/
def prev : Toggle → Toggle
  | unset => exclude
  | require => unset
  | exclude => require

theorem prev_next (toggle : Toggle) : toggle.next.prev = toggle := by
  cases toggle <;> rfl

theorem next_prev (toggle : Toggle) : toggle.prev.next = toggle := by
  cases toggle <;> rfl

/-- Three forward steps walk the whole cycle. -/
theorem next_next_next (toggle : Toggle) : toggle.next.next.next = toggle := by
  cases toggle <;> rfl

/-- No preference. -/
def isUnset (toggle : Toggle) : Bool :=
  toggle == unset

/-- The property is required. -/
def isPositive (toggle : Toggle) : Bool :=
  toggle == require

/-- The property is excluded. -/
def isNegative (toggle : Toggle) : Bool :=
  toggle == exclude

/-- A plain yes or no. -/
def ofBool (wanted : Bool) : Toggle :=
  if wanted then require else exclude

def name : Toggle → String
  | unset => "UNSET"
  | require => "TRUE"
  | exclude => "FALSE"

def ofName? : String → Option Toggle
  | "UNSET" => some unset
  | "TRUE" => some require
  | "FALSE" => some exclude
  | _ => none

theorem ofName?_name (toggle : Toggle) : ofName? toggle.name = some toggle := by
  cases toggle <;> rfl

end Toggle

end DeckBuilder
