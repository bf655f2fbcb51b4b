import DeckBuilder.Query.Basic
import DeckBuilder.Text.Decimal

/-! # Reading search texts

A search text is a list of clauses with semicolons between them. A clause is an opening such as
`t:` or `cmc>=` with a value, or else free text; an exclamation mark in front of the opening or
right after it negates the clause. Every text is some clause: what has no opening, or no number
where one is asked for, is searched for as it stands.
-/

namespace DeckBuilder

/-- The kinds of clauses that have an opening. -/
inductive ClauseKind where
  | inSet
  | ofType
  | oracle
  | flavor
  | rarity
  | colors
  | manaValue (comparator : Comparator)
deriving DecidableEq, Repr

namespace ClauseKind

/-- All openings with their kinds. The first one that fits decides, so the longer comparators stand
before the shorter ones that begin them. -/
def openings : List (String × ClauseKind) :=
  [("set:", inSet), ("s:", inSet), ("t:", ofType), ("type:", ofType), ("o:", oracle),
    ("ft:", flavor), ("r:", rarity), ("c:", colors), ("cmc:", manaValue .eq),
    ("cmc=", manaValue .eq), ("cmc>=", manaValue .ge), ("cmc>", manaValue .gt),
    ("cmc<=", manaValue .le), ("cmc<", manaValue .lt)]

/-- The test that a clause of this kind makes with its value. -/
def predicate? (kind : ClauseKind) (value : List Char) : Option Predicate :=
  match kind with
  | inSet => some (.inSet (String.ofList value))
  | ofType => some (.ofType (String.ofList value))
  | oracle => some (.oracle (String.ofList value))
  | flavor => some (.flavor (String.ofList value))
  | rarity => some (.rarity (Rarity.ofQuery value))
  | colors => some (.colors (value.map Color.ofQuerySymbol))
  | manaValue comparator => (Text.word? value).map (.manaValue comparator)

end ClauseKind

namespace Query

/-- Takes an exclamation mark off the start of a text. -/
def stripBang : List Char → Bool × List Char
  | '!' :: rest => (true, Text.trimStart rest)
  | text => (false, text)

/-- The kind and the value of a text with an opening. -/
def opening? (text : List Char) : Option (ClauseKind × List Char) :=
  ClauseKind.openings.findSome? fun entry =>
    (Text.afterOpening? entry.1.toList text).map fun rest => (entry.2, rest)

/-- The clause of a text with an opening whose value can be read. -/
def prefixed? (negated : Bool) (text : List Char) : Option Query := do
  let (kind, rest) ← opening? text
  let (negatedInside, value) := stripBang (Text.trim rest)
  let predicate ← kind.predicate? (Text.trim value)
  return ⟨predicate, negated || negatedInside⟩

/-- Reads a clause. -/
def parse (clause : List Char) : Query :=
  let (negated, text) := stripBang (Text.lower (Text.trim clause))
  (prefixed? negated text).getD ⟨.anywhere (String.ofList (Text.trim text)), negated⟩

/-- Reads the clauses of a search text, skipping blank ones. -/
def parseAll (search : List Char) : List Query :=
  ((Text.splitWhere (· = ';') search).filter fun clause => !(Text.trim clause).isEmpty).map parse

end Query

end DeckBuilder
