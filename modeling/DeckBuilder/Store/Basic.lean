import DeckBuilder.Disk.FileName
import DeckBuilder.Error
import DeckBuilder.Store.StoredFilter

/-! # The filter store

A directory with one file for each key, which holds the session stored under it. A session counts
only for filters with the schema it was saved from, and a file that holds no session is removed when
it is loaded.
-/

namespace DeckBuilder

/-- The files of the store directory by name. -/
structure FilterStore where
  files : SortedMap String ByteArray

namespace FilterStore

def empty : FilterStore :=
  ⟨∅⟩

/-- A character that keys may have. -/
def isKeyChar (c : Char) : Bool :=
  c.isAlphanum || c == '-' || c == '_'

/-- Whether a text can be a key. -/
def isKey (key : String) : Bool :=
  !key.toList.isEmpty && key.toList.all isKeyChar

/-- The name of the file of a key. -/
def fileName (key : String) : String :=
  key ++ ".json"

/-- The name of the file of a key that is valid. -/
def file (key : String) : Except DeckError String :=
  if isKey key then .ok (fileName key) else .error (.invalidKey key)

/-- Puts a file into the directory, which needs a usable name. -/
def write (store : FilterStore) (name : String) (contents : ByteArray) :
    Except DeckError FilterStore :=
  if FileName.isUsable name then .ok ⟨store.files.insert name contents⟩ else .error .unwritable

/-- The text of a file, if there is such a file and it holds text. -/
def read? (store : FilterStore) (name : String) : Option String :=
  (store.files.get? name).bind String.fromUTF8?

/-- Removes a file from the directory. -/
def delete (store : FilterStore) (name : String) : FilterStore :=
  ⟨store.files.erase name⟩

/-- Saves a session under a key, in place of any other. -/
def save (store : FilterStore) (key : String) (filter : FilterSpec) (sort : SortSpec)
    (page : UInt64) : Except DeckError FilterStore := do
  let name ← file key
  store.write name (StoredFilter.ofSession filter sort page).text.toUTF8

/-- The session of a file's contents; none when the contents are text of another form. -/
def decode (contents : ByteArray) : Except DeckError (Option StoredFilter) :=
  match String.fromUTF8? contents with
  | some text => .ok (StoredFilter.ofText? text)
  | none => .error .unreadable

/-- Loads the session under a key if it was saved from a filter with the current schema. There is
none when there is no file, or none with a session in it; such a file is removed. -/
def load (store : FilterStore) (key : String) (current : FilterSpec) :
    Except DeckError (Option StoredFilter × FilterStore) := do
  let name ← file key
  match store.files.get? name with
  | none => return (none, store)
  | some contents =>
    match ← decode contents with
    | none => return (none, store.delete name)
    | some stored =>
      if stored.hash = current.schemaHash then return (some stored, store)
      else throw (.staleFilter key stored.hash current.schemaHash)

/-- Removes the session under a key, and tells whether there was a file for it. -/
def remove (store : FilterStore) (key : String) : Except DeckError (Bool × FilterStore) := do
  let name ← file key
  if store.files.contains name then return (true, store.delete name) else return (false, store)

/-- The keys for which there are files, sorted. -/
def keys (store : FilterStore) : List String :=
  SortedMap.distinctSorted (store.files.keys.filterMap (FileName.stem? "json"))

/-- Removes the sessions under keys one by one, up to the first that is no valid key. -/
def removeAll (store : FilterStore) : List String → FilterStore × Except DeckError Unit
  | [] => (store, .ok ())
  | key :: rest =>
    match store.remove key with
    | .ok (_, store) => store.removeAll rest
    | .error error => (store, .error error)

/-- Removes every session. -/
def clear (store : FilterStore) : FilterStore × Except DeckError Unit :=
  store.removeAll store.keys

end FilterStore

end DeckBuilder
