import DeckBuilder.Disk.FileName
import DeckBuilder.Disk.Path
import DeckBuilder.Error

/-! # Disks

A tree of directories with files. The root and whatever lies above a directory are directories too.
-/

namespace DeckBuilder

/-- A file with the bytes of a text holds the text. -/
theorem fromUTF8?_toUTF8 (text : String) : String.fromUTF8? text.toUTF8 = some text := by
  rw [String.fromUTF8?, String.toUTF8_eq_toByteArray, dif_pos text.isValidUTF8]
  rfl

/-- A tree of directories with files, of which the first at a place counts. -/
structure Disk where
  directories : List Place
  files : List (Place × ByteArray)

/-- What is found at a place. -/
inductive DiskEntry where
  | directory
  | file (contents : ByteArray)

namespace Disk

/-- A disk with a directory and no files. -/
def ofDirectory (path : String) : Disk :=
  ⟨[.ofNames (Path.names path)], []⟩

/-- Whether there is a directory at a place. -/
def isDirectory (disk : Disk) (place : Place) : Bool :=
  place.isEmpty || disk.directories.any place.isPrefixOf

/-- Where names lead from a place. Every name has to be looked up in a directory. -/
def follow? (disk : Disk) : Place → List String → Option Place
  | place, [] => some place
  | place, name :: rest =>
    if disk.isDirectory place then disk.follow? (place.step name) rest else none

/-- Where a path leads from the root. -/
def locate? (disk : Disk) (path : String) : Option Place :=
  disk.follow? [] (Path.names path)

/-- What is found at the end of a path. -/
def entry? (disk : Disk) (path : String) : Option DiskEntry :=
  (disk.locate? path).bind fun place =>
    if disk.isDirectory place then some .directory else (disk.files.lookup place).map .file

/-- Whether a file can be written at a place. -/
def canHoldFile (disk : Disk) (place : Place) : Bool :=
  !disk.isDirectory place && place.getLast?.any FileName.isUsable

/-- Writes a file, in place of any other. -/
def write (disk : Disk) (path : String) (contents : ByteArray) : Except DeckError Disk :=
  match disk.locate? path with
  | some place =>
    if disk.canHoldFile place then .ok { disk with files := (place, contents) :: disk.files }
    else .error .unwritable
  | none => .error .unwritable

/-- Makes a directory and those on the way to it, unless they are there. -/
def makeDirectory (disk : Disk) (path : String) : Except DeckError Disk :=
  let place := Place.ofNames (Path.names path)
  if disk.files.any fun file => file.1.isPrefixOf place then .error .unwritable
  else .ok { disk with directories := place :: disk.directories }

end Disk

end DeckBuilder
