import DeckBuilder.Text.Pieces

/-! # Paths

A path is a text of names with slashes between them. Each name leads from a place in the tree of
directories to another one: an empty name and `.` stay, and `..` goes up.
-/

namespace DeckBuilder

/-- A place in the tree of directories: the names on the way to it from the root. -/
abbrev Place := List String

namespace Place

/-- Where a name leads. The root is above itself. -/
def step (place : Place) : String → Place
  | "" | "." => place
  | ".." => place.dropLast
  | name => place ++ [name]

/-- Where names lead from the root, if the directories on the way are there. -/
def ofNames (names : List String) : Place :=
  names.foldl step []

end Place

namespace Path

/-- The names of a path. -/
def names (path : String) : List String :=
  (Text.splitWhere (· = '/') path.toList).map String.ofList

/-- A path that starts at the end of another one, unless it starts with a slash: then it starts at
the root. -/
def join (base path : String) : String :=
  if path.toList.head? = some '/' then path else base ++ "/" ++ path

end Path

end DeckBuilder
