import DeckBuilder.Card.Basic
import DeckBuilder.Query.Basic
import DeckBuilder.Text.Decimal

/-! # Copy limits

How many copies of a card a singleton deck may hold: any number of basic lands and of cards that say
so, the number that a card names, and otherwise one.
-/

namespace DeckBuilder

/-- A limit on copies. -/
inductive CopyLimit where
  | limited (most : UInt32)
  | unlimited
deriving DecidableEq, Repr

namespace CopyLimit

/-- The number words that a card may use. -/
def numberWords : List String :=
  ["one", "two", "three", "four", "five", "six", "seven", "eight", "nine", "ten", "eleven",
    "twelve", "thirteen", "fourteen", "fifteen", "sixteen", "seventeen", "eighteen", "nineteen",
    "twenty"]

/-- The number of a number word. -/
def ofWord? (word : List Char) : Option UInt32 :=
  (numberWords.findIdx? (· == String.ofList word)).map fun index => UInt32.ofNat (index + 1)

/-- A character of a number as a card writes it. -/
def isNumberChar (c : Char) : Bool :=
  c.isLower || c.isDigit || c == '-'

/-- The number written at the start of a text that continues with the words `cards named`. -/
def countedAt? (text : List Char) : Option (List Char) :=
  let token := text.takeWhile isNumberChar
  if token.isEmpty then none
  else
    (Text.afterOpening? " cards named".toList (text.dropWhile isNumberChar)).map fun _ => token

/-- The number written in a phrase that starts at the first character. -/
def phraseAt? (text : List Char) : Option (List Char) :=
  ((Text.afterOpening? "deck can have up to ".toList text).or
    (Text.afterOpening? "deck may have up to ".toList text)).bind countedAt?

/-- The number written in the first phrase of a text. -/
def phrase? : List Char → Option (List Char)
  | [] => none
  | c :: rest => (phraseAt? (c :: rest)).or (phrase? rest)

/-- The number that a token means: digits, or the first number word between hyphens. -/
def ofToken? (token : List Char) : Option UInt32 :=
  (Text.word? token).or ((Text.splitWhere (· = '-') token).findSome? ofWord?)

end CopyLimit

namespace Card

/-- Whether the type line is that of a basic land, in any case. -/
def isBasicLandType (card : Card) : Bool :=
  mentions "basic" card.typeLine && mentions "land" card.typeLine

/-- Whether the rules text allows any number of copies. -/
def allowsAnyNumber (card : Card) : Bool :=
  card.oracleText.any fun text =>
    mentions "deck can have any number of cards named" text ||
      mentions "deck may have any number of cards named" text

/-- How many copies a singleton deck may hold. -/
def allowedCopies (card : Card) : CopyLimit :=
  if card.isBasicLandType || card.allowsAnyNumber then .unlimited
  else
    let text := Text.lower ((card.oracleText.getD "").toList)
    .limited (((CopyLimit.phrase? text).bind CopyLimit.ofToken?).getD 1)

end Card

end DeckBuilder
