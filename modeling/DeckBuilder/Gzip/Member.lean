import DeckBuilder.Gzip.Inflate

/-! # Gzip files

The first member of a gzip file: a header, a DEFLATE stream, and the checksum and length of what it
holds. Whatever follows the first member is ignored.
-/

namespace DeckBuilder.Gzip

/-- One step of the cyclic redundancy check for each of the low bits of a register. -/
def checksumSteps : Nat → UInt32 → UInt32
  | 0, register => register
  | steps + 1, register =>
    checksumSteps steps
      (if register &&& 1 = 1 then (register >>> 1) ^^^ 0xEDB88320 else register >>> 1)

/-- The 32-bit cyclic redundancy check of bytes. -/
def checksum (bytes : ByteArray) : UInt32 :=
  ~~~ (bytes.foldl
    (fun register byte => checksumSteps 8 (register ^^^ byte.toUInt32)) 0xFFFFFFFF)

/-- Skips a number of bytes. -/
def skipBytes (count : Nat) : BitReader Unit := fun _ position =>
  some ((), position + 8 * count)

/-- Reads a part of the header that is there when a flag bit is set. -/
def whenFlagged (flags bit : Nat) (reader : BitReader Unit) : BitReader Unit :=
  if flags.testBit bit then reader else pure ()

/-- Reads the checksum of the header, which is half of that of the bytes before it. -/
def headerChecksum : BitReader Unit := do
  let header := (← BitReader.input).extract 0 ((← BitReader.position) / 8)
  let stored ← BitReader.bits 16
  BitReader.require (stored == (checksum header).toNat % 0x10000)

/-- A text in the header with the zero byte after it has at most this many bytes. -/
def textBound : Nat := 0x10000

/-- Reads the header. -/
def header : BitReader Unit := do
  BitReader.require ((← BitReader.bits 16) == 0x8B1F)
  BitReader.require ((← BitReader.bits 8) == 8)
  let flags ← BitReader.bits 8
  BitReader.require (flags < 0x20)
  let _ ← BitReader.bits 48
  whenFlagged flags 2 (do skipBytes (← BitReader.bits 16))
  whenFlagged flags 3 (BitReader.skipText textBound)
  whenFlagged flags 4 (BitReader.skipText textBound)
  whenFlagged flags 1 headerChecksum

/-- Reads a member and checks what it holds. -/
def member : BitReader ByteArray := do
  header
  let output ← inflate
  BitReader.align
  let stored ← BitReader.bits 32
  let size ← BitReader.bits 32
  BitReader.require (stored == (checksum output).toNat && size == output.size % 0x100000000)
  return output

/-- The bytes that the first member of a gzip file holds, if it is intact. -/
def decompress? (bytes : ByteArray) : Option ByteArray :=
  (member bytes 0).map (·.1)

end DeckBuilder.Gzip
