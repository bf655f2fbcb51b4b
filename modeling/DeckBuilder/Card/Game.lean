import DeckBuilder.OrderCode

/-! # Games

The platforms on which printings are available.
-/

namespace DeckBuilder

inductive Game where
  | paper
  | arena
  | mtgo
  | other
deriving DecidableEq, Repr

namespace Game

/-- The platforms that a filter offers from the start. -/
def usual : List Game :=
  [paper, arena, mtgo]

/-- The place of a platform in the order in which filters list them. -/
def index : Game → Nat
  | paper => 0
  | arena => 1
  | mtgo => 2
  | other => 3

instance : OrderKey Game where
  code game := [game.index]
  code_injective := by intro first second; cases first <;> cases second <;> simp [index]

def name : Game → String
  | paper => "paper"
  | arena => "arena"
  | mtgo => "mtgo"
  | other => "other"

def ofName : String → Game
  | "paper" => paper
  | "arena" => arena
  | "mtgo" => mtgo
  | _ => other

theorem ofName_name (game : Game) : ofName game.name = game := by
  cases game <;> rfl

end Game

end DeckBuilder
