import DeckBuilder.Json.Basic

/-! # Compact JSON text

Documents are written without white space. Strings escape the quote, the backslash and the control
characters, by their short names where they have one.
-/

namespace DeckBuilder.Json

/-- A hexadecimal digit in lower case. -/
def hexDigit (n : Nat) : Char :=
  if n < 10 then Char.ofNat ('0'.toNat + n) else Char.ofNat ('a'.toNat + (n - 10))

/-- A character as it stands inside a string literal. -/
def renderChar (c : Char) : List Char :=
  match c with
  | '"' => ['\\', '"']
  | '\\' => ['\\', '\\']
  | '\x08' => ['\\', 'b']
  | '\x09' => ['\\', 't']
  | '\x0a' => ['\\', 'n']
  | '\x0c' => ['\\', 'f']
  | '\x0d' => ['\\', 'r']
  | c =>
    if c.toNat < 0x20 then ['\\', 'u', '0', '0', hexDigit (c.toNat / 16), hexDigit (c.toNat % 16)]
    else [c]

/-- The string literal of a text. -/
def renderString (text : String) : List Char :=
  '"' :: text.toList.flatMap renderChar ++ ['"']

/-- The point and the digits after it, when there are any. -/
def renderFraction (digits : List Nat) : List Char :=
  if digits.isEmpty then [] else '.' :: digits.flatMap Text.numeral

/-- The exponent, when there is one. -/
def renderExponent : Option Int → List Char
  | none => []
  | some exponent => 'e' :: (if exponent < 0 then ['-'] else []) ++ Text.numeral exponent.natAbs

/-- The literal of a number. -/
def Number.render (number : Number) : List Char :=
  (if number.negative then ['-'] else []) ++ Text.numeral number.whole ++
    renderFraction number.fraction ++ renderExponent number.exponent

mutual

/-- The compact text of a document. A garbled document has no text of its own and is written as
`null`. -/
def render : Json → List Char
  | null => ['n', 'u', 'l', 'l']
  | bool true => ['t', 'r', 'u', 'e']
  | bool false => ['f', 'a', 'l', 's', 'e']
  | number value => value.render
  | string value => renderString value
  | array items => '[' :: renderItems items ++ [']']
  | object fields => '{' :: renderFields fields ++ ['}']
  | garbled => ['n', 'u', 'l', 'l']

/-- The items of an array with commas between them. -/
def renderItems : List Json → List Char
  | [] => []
  | [item] => render item
  | item :: next :: rest => render item ++ ',' :: renderItems (next :: rest)

/-- The fields of an object with commas between them. -/
def renderFields : List (String × Json) → List Char
  | [] => []
  | [(name, value)] => renderString name ++ ':' :: render value
  | (name, value) :: next :: rest =>
    renderString name ++ ':' :: render value ++ ',' :: renderFields (next :: rest)

end

/-- The compact text of a document. -/
def compact (json : Json) : String :=
  String.ofList json.render

end DeckBuilder.Json
