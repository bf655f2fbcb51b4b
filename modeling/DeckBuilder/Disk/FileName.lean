/-! # File names

A file name has an extension when it has a point with something before it: what follows the last
point. What stands before that point is the stem.
-/

namespace DeckBuilder.FileName

/-- The most bytes that a file name can have. -/
def maxSize : Nat := 255

/-- A character that file names can have. -/
def isNameChar (c : Char) : Bool :=
  c != '/' && c.toNat != 0

/-- The names that lead to the directory itself and to the one above it. -/
def reserved : List String :=
  ["", ".", ".."]

/-- Whether a directory can have a file of this name. -/
def isUsable (name : String) : Bool :=
  !reserved.contains name && name.toList.all isNameChar && name.utf8ByteSize ≤ maxSize

/-- The stem and the extension of a file name. -/
def split? (name : List Char) : Option (List Char × List Char) :=
  match name.reverse.dropWhile (· ≠ '.') with
  | '.' :: stem =>
    if stem.isEmpty then none
    else some (stem.reverse, (name.reverse.takeWhile (· ≠ '.')).reverse)
  | _ => none

/-- The last part of a path. -/
def ofPath (path : List Char) : List Char :=
  (path.reverse.takeWhile (· ≠ '/')).reverse

/-- The stem of a file name with the given extension. -/
def stem? (extension : String) (name : String) : Option String :=
  (split? name.toList).bind fun (stem, found) =>
    if String.ofList found = extension then some (String.ofList stem) else none

/-- Whether a path leads to a file with the given extension. -/
def hasExtension (extension path : String) : Bool :=
  (stem? extension (String.ofList (ofPath path.toList))).isSome

end DeckBuilder.FileName
