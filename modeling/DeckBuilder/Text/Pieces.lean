/-! # Pieces of a text

Splitting at separators, and looking for one text inside another.
-/

namespace DeckBuilder.Text

/-- Puts a character in front of the first piece. -/
def extendPiece (c : Char) : List (List Char) → List (List Char)
  | [] => [[c]]
  | piece :: rest => (c :: piece) :: rest

/-- The pieces between the separating characters; a text without any is one piece. -/
def splitWhere (separates : Char → Bool) : List Char → List (List Char)
  | [] => [[]]
  | c :: rest =>
    if separates c then [] :: splitWhere separates rest
    else extendPiece c (splitWhere separates rest)

/-- The sides of a text written with `//` between them, found from left to right. -/
def sides : List Char → List (List Char)
  | '/' :: '/' :: rest => [] :: sides rest
  | c :: rest => extendPiece c (sides rest)
  | [] => [[]]

/-- What follows an opening, for a text that starts with it. -/
def afterOpening? : List Char → List Char → Option (List Char)
  | [], text => some text
  | _ :: _, [] => none
  | o :: opening, c :: text => if o = c then afterOpening? opening text else none

/-- Whether the needle is a contiguous part of the text. -/
def occursIn (needle : List Char) : List Char → Bool
  | [] => needle.isEmpty
  | c :: rest => (afterOpening? needle (c :: rest)).isSome || occursIn needle rest

end DeckBuilder.Text

namespace DeckBuilder

/-- Whether the needle is a contiguous part of the text. -/
def occursIn (needle text : String) : Bool :=
  Text.occursIn needle.toList text.toList

/-- Equality of texts up to the case of ASCII letters. -/
def sameIgnoringAsciiCase (first second : String) : Bool :=
  first.toList.map Char.toLower == second.toList.map Char.toLower

end DeckBuilder
