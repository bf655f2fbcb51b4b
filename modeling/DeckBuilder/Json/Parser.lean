import DeckBuilder.Json.Basic

/-! # Reading JSON text

A reader for the whole JSON grammar. Every scanning function returns what it has read together with
the rest of the text. Nesting is unbounded: the recursion is bounded by the length of the text, each
step of it consuming at least one character.
-/

namespace DeckBuilder.Json

/-- The four blanks of the JSON grammar. -/
def isJsonBlank (c : Char) : Bool :=
  c = ' ' || c = '\n' || c = '\t' || c = '\r'

/-- Skips blanks. -/
def skipBlanks (text : List Char) : List Char :=
  text.dropWhile isJsonBlank

/-- The value of a hexadecimal digit in either case. -/
def hexValue? (c : Char) : Option Nat :=
  let n := c.toNat
  if 0x30 ≤ n ∧ n ≤ 0x39 then some (n - 0x30)
  else if 0x61 ≤ n ∧ n ≤ 0x66 then some (n - 0x61 + 10)
  else if 0x41 ≤ n ∧ n ≤ 0x46 then some (n - 0x41 + 10)
  else none

/-- The code unit of four hexadecimal digits. -/
def hexUnit? (a b c d : Char) : Option Nat := do
  let a ← hexValue? a
  let b ← hexValue? b
  let c ← hexValue? c
  let d ← hexValue? d
  return ((a * 16 + b) * 16 + c) * 16 + d

/-- The character that a one-letter escape stands for. -/
def escaped? : Char → Option Char
  | '"' => some '"'
  | '\\' => some '\\'
  | '/' => some '/'
  | 'b' => some '\x08'
  | 'f' => some '\x0c'
  | 'n' => some '\x0a'
  | 'r' => some '\x0d'
  | 't' => some '\x09'
  | _ => none

/-- Reads a string literal after its opening quote, as code points and escaped code units. -/
def scanString : List Char → Option (List Nat × List Char)
  | [] => none
  | '"' :: rest => some ([], rest)
  | '\\' :: 'u' :: a :: b :: c :: d :: rest => do
    let unit ← hexUnit? a b c d
    let (units, rest) ← scanString rest
    return (unit :: units, rest)
  | '\\' :: c :: rest => do
    let c ← escaped? c
    let (units, rest) ← scanString rest
    return (c.toNat :: units, rest)
  | c :: rest => do
    if c = '\\' ∨ c.toNat < 0x20 then none
    let (units, rest) ← scanString rest
    return (c.toNat :: units, rest)

/-- A leading surrogate. -/
def isLeading (unit : Nat) : Bool :=
  0xD800 ≤ unit && unit ≤ 0xDBFF

/-- A trailing surrogate. -/
def isTrailing (unit : Nat) : Bool :=
  0xDC00 ≤ unit && unit ≤ 0xDFFF

/-- The text of code points and code units, if every surrogate is part of a pair. -/
def pairUnits : List Nat → Option (List Char)
  | [] => some []
  | unit :: rest =>
    if isLeading unit then
      match rest with
      | trail :: rest =>
        if isTrailing trail then
          (pairUnits rest).map
            (Char.ofNat (0x10000 + (unit - 0xD800) * 0x400 + (trail - 0xDC00)) :: ·)
        else none
      | [] => none
    else if isTrailing unit then none
    else (pairUnits rest).map (Char.ofNat unit :: ·)

/-- Reads a string literal after its opening quote; `none` in place of a text when its escapes do
not pair up. -/
def scanText (text : List Char) : Option (Option String × List Char) := do
  let (units, rest) ← scanString text
  return ((pairUnits units).map String.ofList, rest)

/-- The ASCII digits at the start of a text, and what follows them. -/
def scanDigits : List Char → List Nat × List Char
  | [] => ([], [])
  | c :: rest =>
    match Text.digitValue? c with
    | some digit => (digit :: (scanDigits rest).1, (scanDigits rest).2)
    | none => ([], c :: rest)

/-- The number that digits denote. -/
def ofDigits (digits : List Nat) : Nat :=
  digits.foldl (fun value digit => value * 10 + digit) 0

/-- Reads the point and the digits after it, at least one, when there is a point. -/
def scanFraction : List Char → Option (List Nat × List Char)
  | '.' :: rest =>
    let (digits, rest) := scanDigits rest
    if digits.isEmpty then none else some (digits, rest)
  | text => some ([], text)

/-- Reads the digits of an exponent, at least one. -/
def scanExponentDigits (negative : Bool) (text : List Char) : Option (Option Int × List Char) :=
  let (digits, rest) := scanDigits text
  if digits.isEmpty then none
  else some (some (if negative then -(ofDigits digits : Int) else ofDigits digits), rest)

/-- Reads the sign and the digits of an exponent. -/
def scanSignedExponent : List Char → Option (Option Int × List Char)
  | '+' :: rest => scanExponentDigits false rest
  | '-' :: rest => scanExponentDigits true rest
  | text => scanExponentDigits false text

/-- Reads an exponent when there is one. -/
def scanExponent : List Char → Option (Option Int × List Char)
  | 'e' :: rest => scanSignedExponent rest
  | 'E' :: rest => scanSignedExponent rest
  | text => some (none, text)

/-- Reads the whole part of a number, which has no leading zeros. -/
def scanWhole (text : List Char) : Option (Nat × List Char) :=
  let (digits, rest) := scanDigits text
  match digits with
  | [] => none
  | 0 :: _ :: _ => none
  | digits => some (ofDigits digits, rest)

/-- Reads a number after its sign. -/
def scanUnsigned (negative : Bool) (text : List Char) : Option (Number × List Char) := do
  let (whole, rest) ← scanWhole text
  let (fraction, rest) ← scanFraction rest
  let (exponent, rest) ← scanExponent rest
  return (⟨negative, whole, fraction, exponent⟩, rest)

/-- Reads a number. -/
def scanNumber : List Char → Option (Number × List Char)
  | '-' :: rest => scanUnsigned true rest
  | text => scanUnsigned false text

/-- An object with the given fields, garbled when a name is no text. -/
def ofFields (fields : List (Option String × Json)) : Json :=
  match fields.mapM fun field => field.1.map fun name => (name, field.2) with
  | some fields => object fields
  | none => garbled

mutual

/-- Reads a value that starts at the first character of the text. -/
def scanValue : Nat → List Char → Option (Json × List Char)
  | 0, _ => none
  | _ + 1, [] => none
  | bound + 1, c :: rest =>
    match c with
    | '"' => do
      let (text, rest) ← scanText rest
      return (match text with
        | some text => string text
        | none => garbled, rest)
    | '[' =>
      match skipBlanks rest with
      | ']' :: rest => some (array [], rest)
      | rest => do
        let (items, rest) ← scanItems bound rest
        return (array items, rest)
    | '{' =>
      match skipBlanks rest with
      | '}' :: rest => some (object [], rest)
      | rest => do
        let (fields, rest) ← scanFields bound rest
        return (ofFields fields, rest)
    | 'n' =>
      match rest with
      | 'u' :: 'l' :: 'l' :: rest => some (null, rest)
      | _ => none
    | 't' =>
      match rest with
      | 'r' :: 'u' :: 'e' :: rest => some (bool true, rest)
      | _ => none
    | 'f' =>
      match rest with
      | 'a' :: 'l' :: 's' :: 'e' :: rest => some (bool false, rest)
      | _ => none
    | c => do
      let (value, rest) ← scanNumber (c :: rest)
      return (number value, rest)

/-- Reads the items of a non-empty array up to its closing bracket. -/
def scanItems : Nat → List Char → Option (List Json × List Char)
  | 0, _ => none
  | bound + 1, text => do
    let (item, rest) ← scanValue bound text
    match skipBlanks rest with
    | ']' :: rest => some ([item], rest)
    | ',' :: rest => do
      let (items, rest) ← scanItems bound (skipBlanks rest)
      return (item :: items, rest)
    | _ => none

/-- Reads the fields of a non-empty object up to its closing brace. -/
def scanFields : Nat → List Char → Option (List (Option String × Json) × List Char)
  | 0, _ => none
  | bound + 1, text => do
    let '"' :: rest := text | none
    let (name, rest) ← scanText rest
    let ':' :: rest := skipBlanks rest | none
    let (value, rest) ← scanValue bound (skipBlanks rest)
    match skipBlanks rest with
    | '}' :: rest => some ([(name, value)], rest)
    | ',' :: rest => do
      let (fields, rest) ← scanFields bound (skipBlanks rest)
      return ((name, value) :: fields, rest)
    | _ => none

end

/-- Reads a text that is one document with blanks around it. -/
def parse? (text : String) : Option Json := do
  let chars := text.toList
  let (json, rest) ← scanValue (2 * chars.length + 2) (skipBlanks chars)
  if (skipBlanks rest).isEmpty then some json else none

end DeckBuilder.Json
