import DeckBuilder.Gzip.Huffman

/-! # Inflating

Decompression of a DEFLATE stream: blocks of stored bytes, or of literals and of copies of earlier
output in a fixed or a transmitted prefix code. Every step reads at least one bit, so the number of
bits bounds the number of steps.
-/

namespace DeckBuilder.Gzip

/-- The base lengths of the copy symbols with the number of extra bits that follow them. -/
def copyLengths : List (Nat × Nat) :=
  [(3, 0), (4, 0), (5, 0), (6, 0), (7, 0), (8, 0), (9, 0), (10, 0), (11, 1), (13, 1), (15, 1),
    (17, 1), (19, 2), (23, 2), (27, 2), (31, 2), (35, 3), (43, 3), (51, 3), (59, 3), (67, 4),
    (83, 4), (99, 4), (115, 4), (131, 5), (163, 5), (195, 5), (227, 5), (258, 0)]

/-- The base distances with the number of extra bits that follow them. -/
def copyDistances : List (Nat × Nat) :=
  [(1, 0), (2, 0), (3, 0), (4, 0), (5, 1), (7, 1), (9, 2), (13, 2), (17, 3), (25, 3), (33, 4),
    (49, 4), (65, 5), (97, 5), (129, 6), (193, 6), (257, 7), (385, 7), (513, 8), (769, 8),
    (1025, 9), (1537, 9), (2049, 10), (3073, 10), (4097, 11), (6145, 11), (8193, 12), (12289, 12),
    (16385, 13), (24577, 13)]

/-- The byte at a distance from the end. Zero bytes stand in front of the output. -/
def byteBack (distance : Nat) (output : ByteArray) : UInt8 :=
  if distance ≤ output.size then (output[output.size - distance]?).getD 0 else 0

/-- Appends copies of the bytes at a distance from the end. -/
def copyBack (distance : Nat) : Nat → ByteArray → ByteArray
  | 0, output => output
  | length + 1, output => copyBack distance length (output.push (byteBack distance output))

/-- Reads a number given by a symbol and extra bits. -/
def extended (table : List (Nat × Nat)) (symbol : Nat) : BitReader Nat := do
  let (base, extra) ← .ofOption table[symbol]?
  let more ← BitReader.bits extra
  return base + more

/-- Reads literals and copies up to the end of the block. -/
def inflateCodes (literals distances : Huffman) : Nat → ByteArray → BitReader ByteArray
  | 0, _ => .fail
  | bound + 1, output => do
    let symbol ← literals.decode
    if symbol < 256 then inflateCodes literals distances bound (output.push (UInt8.ofNat symbol))
    else if symbol = 256 then return output
    else
      let length ← extended copyLengths (symbol - 257)
      let distance ← extended copyDistances (← distances.decode)
      inflateCodes literals distances bound (copyBack distance length output)

/-- Reads stored bytes. -/
def storedBytes : Nat → ByteArray → BitReader ByteArray
  | 0, output => return output
  | length + 1, output => do
    let byte ← BitReader.bits 8
    storedBytes length (output.push (UInt8.ofNat byte))

/-- Reads a block of stored bytes, whose length is given twice. -/
def storedBlock (output : ByteArray) : BitReader ByteArray := do
  BitReader.align
  let length ← BitReader.bits 16
  let complement ← BitReader.bits 16
  BitReader.require (length + complement == 0xFFFF)
  storedBytes length output

/-- The code of literals and lengths of a block in the fixed code. -/
def fixedLiterals? : Option Huffman :=
  Huffman.ofLengths? true (List.replicate 144 8 ++ List.replicate 112 9 ++ List.replicate 24 7 ++
    List.replicate 8 8)

/-- The code of distances of a block in the fixed code. -/
def fixedDistances? : Option Huffman :=
  Huffman.ofLengths? true (List.replicate 32 5)

/-- The order in which the lengths of the code for lengths are given. -/
def lengthOrder : List Nat :=
  [16, 17, 18, 0, 8, 7, 9, 6, 10, 5, 11, 4, 12, 3, 13, 2, 14, 1, 15]

/-- Reads word lengths in the code for lengths until there are enough. Repetitions must not lead
beyond that number. -/
def wordLengths (code : Huffman) (total : Nat) : Nat → List Nat → BitReader (List Nat)
  | 0, _ => .fail
  | bound + 1, lengths => do
    let repeated (length count : Nat) : BitReader (List Nat) :=
      wordLengths code total bound (lengths ++ List.replicate count length)
    if lengths.length = total then return lengths
    else if total < lengths.length then .fail
    else
      let symbol ← code.decode
      match symbol with
      | 16 => do
        let length ← .ofOption lengths.getLast?
        repeated length (3 + (← BitReader.bits 2))
      | 17 => do repeated 0 (3 + (← BitReader.bits 3))
      | 18 => do repeated 0 (11 + (← BitReader.bits 7))
      | length => repeated length 1

/-- Reads as many numbers of a width as are asked for. -/
def numbers (width : Nat) : Nat → BitReader (List Nat)
  | 0 => return []
  | count + 1 => do
    let number ← BitReader.bits width
    return number :: (← numbers width count)

/-- Reads the codes of a block that transmits its own. Only symbols with a meaning get words. -/
def transmittedCodes : BitReader (Huffman × Huffman) := do
  let literalCount := (← BitReader.bits 5) + 257
  let distanceCount := (← BitReader.bits 5) + 1
  BitReader.require (literalCount ≤ 286 && distanceCount ≤ copyDistances.length)
  let lengthCount := (← BitReader.bits 4) + 4
  let given ← numbers 3 lengthCount
  let lengths := (List.range 19).map fun symbol => (given[lengthOrder.idxOf symbol]?).getD 0
  let code ← .ofOption (Huffman.ofLengths? false lengths)
  let total := literalCount + distanceCount
  let lengths ← wordLengths code total (total + 1) []
  let literals ← .ofOption (Huffman.ofLengths? true (lengths.take literalCount))
  let distances ← .ofOption (Huffman.ofLengths? true (lengths.drop literalCount))
  return (literals, distances)

/-- Reads blocks up to the last one. -/
def inflateBlocks : Nat → ByteArray → BitReader ByteArray
  | 0, _ => .fail
  | bound + 1, output => do
    let last ← BitReader.bit
    let kind ← BitReader.bits 2
    let steps := (← BitReader.input).size * 8 + 1
    let output ←
      match kind with
      | 0 => storedBlock output
      | 1 => do
        inflateCodes (← .ofOption fixedLiterals?) (← .ofOption fixedDistances?) steps output
      | 2 => do
        let (literals, distances) ← transmittedCodes
        inflateCodes literals distances steps output
      | _ => .fail
    if last = 1 then return output else inflateBlocks bound output

/-- Reads a DEFLATE stream. -/
def inflate : BitReader ByteArray := do
  inflateBlocks ((← BitReader.input).size * 8 + 1) ByteArray.empty

end DeckBuilder.Gzip
