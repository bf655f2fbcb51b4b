import DeckBuilder.OrderCode

/-! # Colors

The five colors and colorless, as symbols of a card's color identity.
-/

namespace DeckBuilder

/-- A symbol of a color identity. -/
inductive Color where
  | white
  | blue
  | black
  | red
  | green
  | colorless
deriving DecidableEq, Repr

namespace Color

/-- All symbols, in the order in which filters list them. -/
def all : List Color :=
  [white, blue, black, red, green, colorless]

/-- The place of a symbol in that order. -/
def index : Color → Nat
  | white => 0
  | blue => 1
  | black => 2
  | red => 3
  | green => 4
  | colorless => 5

instance : OrderKey Color where
  code color := [color.index]
  code_injective := by intro first second; cases first <;> cases second <;> simp [index]

/-- The letter of a symbol. -/
def letter : Color → Char
  | white => 'W'
  | blue => 'U'
  | black => 'B'
  | red => 'R'
  | green => 'G'
  | colorless => 'C'

def name (color : Color) : String :=
  color.letter.toString

/-- The symbol of a letter in either case. -/
def ofSymbol? (c : Char) : Option Color :=
  match c.toUpper with
  | 'W' => some white
  | 'U' => some blue
  | 'B' => some black
  | 'R' => some red
  | 'G' => some green
  | 'C' => some colorless
  | _ => none

def ofName? : String → Option Color
  | "W" => some white
  | "U" => some blue
  | "B" => some black
  | "R" => some red
  | "G" => some green
  | "C" => some colorless
  | _ => none

theorem ofName?_name (color : Color) : ofName? color.name = some color := by
  cases color <;> decide

/-- The symbol of a letter in a search clause, where any other character means colorless. -/
def ofQuerySymbol (c : Char) : Color :=
  (ofSymbol? c).getD colorless

/-- The letter that orders identities: colorless first, then along the color wheel. -/
def wheelLetter : Color → Char
  | colorless => 'A'
  | white => 'B'
  | blue => 'C'
  | red => 'D'
  | black => 'E'
  | green => 'F'

end Color

end DeckBuilder
