import DeckBuilder.Text.CaseTable

/-! # Lower-casing

Full Unicode lower-casing. Every character has its own lower-case form, except that a capital sigma
becomes the final form `ς` at the end of a word: when a cased character stands before it and none
after it, characters that are ignorable for case being skipped on both sides.
-/

namespace DeckBuilder.Text

/-- A character with the property `Cased`. -/
def isCased (c : Char) : Bool :=
  if c.toNat < 128 then c.isAlpha
  else casedRanges.any fun range => range.1 ≤ c.toNat && c.toNat ≤ range.2

/-- A character with the property `Case_Ignorable`. -/
def isCaseIgnorable (c : Char) : Bool :=
  caseIgnorableRanges.any fun range => range.1 ≤ c.toNat && c.toNat ≤ range.2

/-- Whether a run of the case table lists the character with this code point. -/
def CaseRun.lists (run : CaseRun) (n : Nat) : Bool :=
  run.first ≤ n && n ≤ run.last && (n - run.first) % run.step == 0

/-- The simple lower-case form of a character. -/
def simpleLower (c : Char) : Char :=
  if c.toNat < 128 then c.toLower
  else
    match lowerRuns.find? fun run => run.lists c.toNat with
    | some run => Char.ofNat (c.toNat + run.shift).toNat
    | none => c

/-- The lower-case form of a character that stands alone. A dotted capital `İ` keeps its dot as a
combining mark. -/
def lowerChar (c : Char) : List Char :=
  if c = 'İ' then ['i', '\u0307'] else [simpleLower c]

/-- Whether the first character that is not ignorable for case is cased. -/
def startsCased (text : List Char) : Bool :=
  (text.dropWhile isCaseIgnorable).head?.any isCased

/-- Lower-cases a text that continues another; `afterCased` says whether the last character before
it that is not ignorable for case is cased. -/
def lowerAfter (afterCased : Bool) : List Char → List Char
  | [] => []
  | c :: rest =>
    (if c = 'Σ' then [if afterCased && !startsCased rest then 'ς' else 'σ'] else lowerChar c) ++
      lowerAfter (if isCaseIgnorable c then afterCased else isCased c) rest

def lower (text : List Char) : List Char :=
  lowerAfter false text

end DeckBuilder.Text

namespace DeckBuilder

def lowercase (text : String) : String :=
  String.ofList (Text.lower text.toList)

end DeckBuilder
