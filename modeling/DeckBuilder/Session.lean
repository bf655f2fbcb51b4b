import DeckBuilder.Catalogue.Reader
import DeckBuilder.Search.Basic
import DeckBuilder.Store.Basic

/-! # Sessions

A session owns a catalogue and a filter store. It searches the one and keeps the filter of the
catalogue in the other.
-/

namespace DeckBuilder

/-- What a session is opened with. -/
structure SessionSettings where
  /-- The directory of the filter store, by default one inside the data directory. -/
  storePath : Option String := none
  /-- The number of cards on a page. -/
  pageSize : UInt64 := 50
  /-- The file of a catalogue to load. -/
  cataloguePath : Option String := none
  /-- Cards to add to those that are loaded. -/
  cards : List Card := []

/-- A catalogue with a filter store. -/
structure Session where
  catalogue : Catalogue
  store : FilterStore
  storePath : String
  pageSize : UInt64

namespace Session

/-- The name of the default store inside the data directory. -/
def defaultStoreName : String := "magic-helper"

/-- The key under which the filter of the catalogue is stored. -/
def filterKey : String := "localStoreFilter"

/-- Opens a session with an empty filter store, whose directory is made before the catalogue is
loaded. -/
def openWith (disk : Disk) (dataPath : String) (settings : SessionSettings) :
    Except DeckError Session := do
  if settings.pageSize = 0 then throw .emptyPages
  let storePath := settings.storePath.getD (Path.join dataPath defaultStoreName)
  let disk ← disk.makeDirectory storePath
  let loaded ← match settings.cataloguePath with
    | some path => Catalogue.load disk path
    | none => pure ⟨[]⟩
  return {
    catalogue := ⟨loaded.cards ++ settings.cards⟩
    store := .empty
    storePath
    pageSize := settings.pageSize
  }

/-- One page of a search in the catalogue. -/
def searchPage (session : Session) (filter : FilterSpec) (sort : SortSpec)
    (context : FilterContext) (page : UInt64) : CardPage :=
  session.catalogue.searchPage filter sort context session.pageSize page

/-- Stores the filter of the catalogue. -/
def saveFilter (session : Session) (filter : FilterSpec) (sort : SortSpec) (page : UInt64) :
    Except DeckError Session := do
  return { session with store := ← session.store.save filterKey filter sort page }

/-- Restores the filter of the catalogue, or starts afresh from the schema of the catalogue when
nothing is stored. -/
def restoreFilter (session : Session) : Except DeckError (StoredFilter × Session) := do
  let schema := session.catalogue.filterSchema
  let (stored, store) ← session.store.load filterKey schema
  return (stored.getD (.ofSession schema .standard 0), { session with store })

/-- A short description of a session. -/
def describe (session : Session) : String :=
  "MagicHelper(cards=" ++ decimal session.catalogue.size ++ ", store_dir=" ++
    session.storePath ++ ")"

end Session

end DeckBuilder
