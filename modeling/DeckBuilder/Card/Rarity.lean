import DeckBuilder.OrderCode
import DeckBuilder.Text.Blank
import DeckBuilder.Text.Lowercase

/-! # Rarities -/

namespace DeckBuilder

/-- The rarity of a printing; everything outside the four usual ones is special. -/
inductive Rarity where
  | common
  | uncommon
  | rare
  | mythic
  | special
deriving DecidableEq, Repr

namespace Rarity

/-- The rarities that a filter offers from the start. -/
def usual : List Rarity :=
  [common, uncommon, rare, mythic]

/-- The rank of a rarity, lowest first. -/
def rank : Rarity → Nat
  | common => 0
  | uncommon => 1
  | rare => 2
  | mythic => 3
  | special => 4

instance : OrderKey Rarity where
  code rarity := [rarity.rank]
  code_injective := by intro first second; cases first <;> cases second <;> simp [rank]

def name : Rarity → String
  | common => "common"
  | uncommon => "uncommon"
  | rare => "rare"
  | mythic => "mythic"
  | special => "special"

def ofName : String → Rarity
  | "common" => common
  | "uncommon" => uncommon
  | "rare" => rare
  | "mythic" => mythic
  | _ => special

theorem ofName_name (rarity : Rarity) : ofName rarity.name = rarity := by
  cases rarity <;> rfl

/-- The rarity that a search clause names, in full or by its first letter in either case. Anything
else counts as common. -/
def ofQuery (text : List Char) : Rarity :=
  match String.ofList (Text.lower (Text.trim text)) with
  | "c" | "common" => common
  | "u" | "uncommon" => uncommon
  | "r" | "rare" => rare
  | "m" | "mythic" => mythic
  | _ => common

end Rarity

end DeckBuilder
