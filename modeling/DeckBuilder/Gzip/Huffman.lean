import DeckBuilder.Gzip.BitReader

/-! # Canonical prefix codes

A code is given by the lengths of the code words of its symbols. Shorter words come first, and words
of one length are numbered in the order of their symbols.
-/

namespace DeckBuilder.Gzip

/-- The longest code word. -/
def maxWordLength : Nat := 15

/-- A canonical prefix code: the number of words of each length from one on, and the symbols in the
order of their words. -/
structure Huffman where
  counts : List Nat
  symbols : Array Nat

namespace Huffman

/-- The symbols whose words have a length. -/
def symbolsOfLength (lengths : List Nat) (length : Nat) : List Nat :=
  lengths.zipIdx.filterMap fun entry => if entry.1 = length then some entry.2 else none

/-- The share of all words of the greatest length that begin with some code word. -/
def coverage (counts : List Nat) : Nat :=
  counts.foldl (fun covered count => (covered + count) * 2) 0

/-- The code of the given word lengths, where zero means no word. The words must leave no gap,
except that where `sparse` allows it there may be no word, or a single one of length one. -/
def ofLengths? (sparse : Bool) (lengths : List Nat) : Option Huffman :=
  let groups := (List.range maxWordLength).map fun n => symbolsOfLength lengths (n + 1)
  let counts := groups.map (·.length)
  let symbols := groups.flatten
  let few := symbols.length ≤ 1 && symbols == symbolsOfLength lengths 1
  if coverage counts = 1 <<< (maxWordLength + 1) || (sparse && few) then
    some ⟨counts, symbols.toArray⟩
  else none

/-- Reads a word: `code` is what has been read of it, `first` the first word of the current length,
and `index` the number of shorter words. -/
def decodeFrom (symbols : Array Nat) : List Nat → (code first index : Nat) → BitReader Nat
  | [], _, _, _ => .fail
  | count :: counts, code, first, index => do
    let bit ← BitReader.bit
    let code := 2 * code + bit
    let first := 2 * first
    if code < first + count then .ofOption symbols[index + (code - first)]?
    else decodeFrom symbols counts code (first + count) (index + count)

/-- Reads a symbol. -/
def decode (huffman : Huffman) : BitReader Nat :=
  decodeFrom huffman.symbols huffman.counts 0 0 0

end Huffman

end DeckBuilder.Gzip
