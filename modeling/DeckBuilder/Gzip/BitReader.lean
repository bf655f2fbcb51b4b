/-! # Reading bits

Bits of a byte sequence, from the low end of each byte. A reader fails past the end.
-/

namespace DeckBuilder.Gzip

/-- A computation that reads bits from a byte sequence, from a position counted in bits. -/
abbrev BitReader (β : Type) : Type :=
  ByteArray → Nat → Option (β × Nat)

namespace BitReader

instance : Monad BitReader where
  pure value := fun _ position => some (value, position)
  bind reader next := fun bytes position =>
    match reader bytes position with
    | some (value, position) => next value bytes position
    | none => none

/-- Fails. -/
def fail {β : Type} : BitReader β :=
  fun _ _ => none

/-- Goes on only when a condition holds. -/
def require (condition : Bool) : BitReader Unit :=
  if condition then pure () else fail

/-- The value of an option, if there is one. -/
def ofOption {β : Type} : Option β → BitReader β
  | some value => pure value
  | none => fail

/-- The next bit. -/
def bit : BitReader Nat := fun bytes position =>
  bytes[position / 8]?.map fun byte => (byte.toNat >>> (position % 8) % 2, position + 1)

/-- A number of the given width, low bit first. -/
def bits : Nat → BitReader Nat
  | 0 => pure 0
  | width + 1 => do
    let low ← bit
    let high ← bits width
    return low + 2 * high

/-- Skips to the start of the next byte. -/
def align : BitReader Unit := fun _ position =>
  some ((), (position + 7) / 8 * 8)

/-- Skips bytes up to and including a zero byte; `bound` limits how many. -/
def skipText : Nat → BitReader Unit
  | 0 => fail
  | bound + 1 => do
    let byte ← bits 8
    if byte = 0 then pure () else skipText bound

/-- The whole byte sequence. -/
def input : BitReader ByteArray := fun bytes position =>
  some (bytes, position)

/-- The number of bits read so far. -/
def position : BitReader Nat := fun _ position =>
  some (position, position)

end BitReader

end DeckBuilder.Gzip
