import DeckBuilder.Error
import DeckBuilder.OrderCode
import DeckBuilder.Text.Decimal

/-! # Mana buckets

Filters sort mana values into one bucket for each value from zero to nine and one for all above.
-/

namespace DeckBuilder

/-- A bucket of mana values. -/
inductive ManaBucket where
  | exact (value : UInt32)
  | infinite
deriving DecidableEq, Repr

namespace ManaBucket

/-- The highest mana value with a bucket of its own. -/
def highest : UInt32 := 9

/-- The buckets that a filter offers from the start. -/
def all : List ManaBucket :=
  (List.range (highest.toNat + 1)).map (fun n => exact (UInt32.ofNat n)) ++ [infinite]

/-- Buckets are ordered by value, with the open one last. -/
instance : OrderKey ManaBucket where
  code
    | exact value => [0, value.toNat]
    | infinite => [1]
  code_injective := by
    intro first second
    cases first <;> cases second <;> simp [UInt32.toNat_inj]

/-- Whether a mana value falls into the bucket. -/
def contains : ManaBucket → UInt32 → Bool
  | exact value, manaValue => manaValue == value
  | infinite, manaValue => highest < manaValue

/-- The bucket of a mana value. -/
def ofManaValue (manaValue : UInt32) : ManaBucket :=
  if highest < manaValue then infinite else exact manaValue

def name : ManaBucket → String
  | exact value => decimal value.toNat
  | infinite => "infinite"

/-- The bucket of a name; numbers above the highest have none. -/
def ofName? (name : String) : Option ManaBucket :=
  if name = "infinite" then some infinite
  else (Text.word? name.toList).bind fun value =>
    if value ≤ highest then some (exact value) else none

/-- The bucket of a name, or the refusal of the name. -/
def ofName (name : String) : Except DeckError ManaBucket :=
  match ofName? name with
  | some bucket => .ok bucket
  | none => .error (.invalidManaBucket name)

end ManaBucket

end DeckBuilder
