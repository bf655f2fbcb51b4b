import DeckBuilder.Text.Blank
import DeckBuilder.Text.Decimal
import DeckBuilder.Text.DecimalDigit

/-! # Decklist lines

A line is a count, blanks and a name. The name may be followed by the printing in parentheses and
its collector number, which are left out.
-/

namespace DeckBuilder

/-- A line of a decklist. -/
structure DecklistLine where
  name : String
  count : UInt32
deriving DecidableEq, Repr

namespace DecklistLine

/-- What follows blanks, at least one. -/
def afterBlanks? (text : List Char) : Option (List Char) :=
  if text.head?.any Text.isBlank then some (Text.trimStart text) else none

/-- Splits a line into its decimal digits and what follows the blanks behind them, all of which
there must be. -/
def splitCount? (line : List Char) : Option (List Char × List Char) := do
  let digits := line.takeWhile Text.isDecimalDigit
  let name ← afterBlanks? (line.dropWhile Text.isDecimalDigit)
  if digits.isEmpty || name.isEmpty then none else some (digits, name)

/-- Whether a text consists of decimal digits, at least one. -/
def isCollectorNumber (text : List Char) : Bool :=
  !text.isEmpty && text.all Text.isDecimalDigit

/-- Whether a text is blanks, a printing in parentheses, blanks and a collector number. -/
def isPrintingNote (text : List Char) : Bool :=
  match afterBlanks? text with
  | some ('(' :: rest) =>
    match rest.dropWhile (· ≠ ')') with
    | ')' :: rest => (afterBlanks? rest).any isCollectorNumber
    | _ => false
  | _ => false

/-- A text up to the first note of a printing after its first character. -/
def withoutNote : List Char → List Char
  | [] => []
  | c :: rest => if isPrintingNote rest then [c] else c :: withoutNote rest

/-- The entry of a count and a name. Both are needed: the count is an ASCII numeral of a positive
32-bit number. -/
def ofParts? (digits name : List Char) : Option DecklistLine :=
  (Text.natural? digits).bind fun count =>
    let name := Text.trim name
    if 0 < count ∧ count < UInt32.size ∧ !name.isEmpty then
      some ⟨String.ofList name, UInt32.ofNat count⟩
    else none

/-- Reads a trimmed line. -/
def parse? (line : List Char) : Option DecklistLine :=
  (splitCount? line).bind fun (digits, name) => ofParts? digits (withoutNote name)

end DecklistLine

end DeckBuilder
