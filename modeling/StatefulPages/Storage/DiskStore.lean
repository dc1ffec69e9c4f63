import StatefulPages.Storage.Index
import StatefulPages.Keyed
import StatefulPages.Storage.SessionStore
import StatefulPages.Storage.Session

/-!
# Stores on disk

A `DiskStore` has a data file for each session. `DiskStore.destroy` writes the index, and a store
that is started in the same folder goes on from there: the index is read and deleted.

Sessions are objects that others may hold on to while the store removes them, so the store keeps
them in a heap and knows them by number.
-/

namespace StatefulPages

/-- The identity of a session object. -/
abbrev SessionRef := Nat

/-- A store cannot be started. -/
inductive StartError where
  /-- The permission to make the folder for the store is missing. -/
  | denied (root : Path)
  /-- The folder for the store cannot be made. -/
  | noFolder (root : Path) (cause : IoError)
  deriving DecidableEq, Repr, Inhabited

/-- The message for an error. -/
def StartError.message : StartError → String
  | denied root => "Cannot create the page store folder " ++ root.text ++
      ": permission denied. Set `store_folder` to a folder that the application can write to, or use " ++
      "`MemoryDataStore` instead of `DiskDataStore`."
  | noFolder root _ => "Failed to create the page store folder " ++ root.text

/-- The pages of sessions, in files. -/
structure DiskStore where
  folder : StoreFolder
  /-- The budget for the data file of a session. -/
  budget : Nat
  files : Files
  /-- All session objects there have been. -/
  objects : Heap Session := .empty
  /-- The sessions that have not been removed. -/
  sessions : Keyed SessionRef := {}
  deriving Inhabited

namespace DiskStore

/-- The budget for a session if nothing else is said: 10 MiB. -/
def defaultBudget : Nat := 10 * 1024 * 1024

/-- The number of files kept open if nothing else is said. -/
def defaultCapacity : Nat := 50

/-! ## Sessions -/

/-- The object for a session. -/
def session? (s : DiskStore) (session : SessionId) : Option SessionRef :=
  s.sessions.get? session

/-- The objects of the sessions that have not been removed. -/
def live (s : DiskStore) : List Session :=
  s.sessions.values.map s.objects.get

/-- The ids of the pages of a session, the oldest first. -/
def pageIds (s : DiskStore) (session : SessionId) : List PageId :=
  match s.session? session with
  | some ref => ((s.objects.get ref).layout?.elim [] (·.windows)).map (·.page)
  | none => []

/-- Adds an object and makes it the one for its session. -/
def addSession (s : DiskStore) (entry : Session) : DiskStore :=
  { s with objects := s.objects.add entry, sessions := s.sessions.set entry.id s.objects.next }

/-- The object for a session, which is made if it is missing. -/
def obtain (s : DiskStore) (session : SessionId) : SessionRef × DiskStore :=
  match s.session? session with
  | some ref => (ref, s)
  | none =>
    (s.objects.next, s.addSession (.ofFolder session (s.folder.sessionFolder session) s.budget))

/-! ## Work on a session object

Whoever holds an object may do this, whether or not the session has been removed.
-/

/-- Stores a page. -/
def saveIn (s : DiskStore) (ref : SessionRef) (page : PageId) (data : List UInt8) : DiskStore :=
  let (entry, files) := (s.objects.get ref).save page data s.files
  { s with objects := s.objects.set ref entry, files }

/-- Reads a page. -/
def loadFrom (s : DiskStore) (ref : SessionRef) (page : PageId) :
    Option (List UInt8) × DiskStore :=
  let (data, files) := (s.objects.get ref).load page s.files
  (data, { s with files })

/-- Forgets a page. -/
def removeFrom (s : DiskStore) (ref : SessionRef) (page : PageId) : DiskStore :=
  { s with objects := s.objects.set ref ((s.objects.get ref).remove page) }

/-- Ends a session. -/
def unbind (s : DiskStore) (ref : SessionRef) : DiskStore :=
  let (entry, files) := (s.objects.get ref).unbind s.files
  { s with objects := s.objects.set ref entry, files }

/-! ## Work on pages -/

/-- Reads a page. -/
def load (s : DiskStore) (session : SessionId) (page : PageId) :
    Option (List UInt8) × DiskStore :=
  match s.session? session with
  | some ref => s.loadFrom ref page
  | none => (none, s)

/-- Stores a page. -/
def store (s : DiskStore) (session : SessionId) (page : PageId) (data : List UInt8) : DiskStore :=
  if data = [] then s
  else
    let (ref, s) := s.obtain session
    s.saveIn ref page data

/-- Forgets a page. -/
def remove (s : DiskStore) (session : SessionId) (page : PageId) : DiskStore :=
  match s.session? session with
  | some ref => s.removeFrom ref page
  | none => s

/-- Ends a session and forgets it. -/
def removeSession (s : DiskStore) (session : SessionId) : DiskStore :=
  match s.session? session with
  | some ref => { s.unbind ref with sessions := s.sessions.erase session }
  | none => s

/-! ## Stopping and starting -/

/-- The index of the store: all sessions, sorted by id. -/
def index (s : DiskStore) : StoreIndex :=
  let records := s.live.filterMap fun entry =>
    entry.layout?.map (SessionRecord.ofLayout entry.id)
  { sessions := records.mergeSort fun a b => !decide (b.id < a.id) }

/-- Writes the index, unless there are no sessions. -/
def saveIndex (s : DiskStore) : DiskStore :=
  if s.index.sessions = [] then s
  else match s.index.toBytes with
  | .ok bytes =>
    let disk := (s.files.disk.writeAll s.folder.indexFile bytes).2
    { s with files := { s.files with disk } }
  | .error _ => s

/-- Writes the index and closes all files. -/
def destroy (s : DiskStore) : DiskStore :=
  let s := s.saveIndex
  { s with files := s.files.closeAll }

/-- Takes sessions over from an index, those with inconsistent layouts excepted. -/
def restore : List SessionRecord → DiskStore → DiskStore
  | [], s => s
  | r :: records, s =>
    let folder := s.folder.sessionFolder r.id
    match Session.ofLayout r.id folder r.layout s.budget s.files.disk with
    | .ok entry => restore records (s.addSession entry)
    | .error _ => restore records s

/-- Reads the index and deletes it. What is no index is deleted, too. -/
def loadIndex (s : DiskStore) : DiskStore :=
  let file := s.folder.indexFile
  if s.files.disk.isThere file then
    let (content, disk) := s.files.disk.readAll file
    let s := { s with files := { s.files with disk } }
    let records := match content.toOption.map StoreIndex.parse with
      | some (.ok index) => index.sessions
      | _ => []
    let s := restore records s
    let disk := (s.files.disk.deleteFile file).2
    { s with files := { s.files with disk } }
  else s

/-- Starts a store on a disk. Session objects that are held already stay what they are. -/
def start (folder : StoreFolder) (budget capacity : Nat) (disk : Disk)
    (objects : Heap Session := .empty) : Except StartError DiskStore :=
  match disk.createFolders folder.root with
  | (.ok _, disk) =>
    let files : Files := { pool := .ofCapacity capacity, disk }
    .ok (loadIndex { folder, budget, files, objects })
  | (.error e, _) => .error (if disk.isDenied then .denied folder.root else .noFolder folder.root e)

instance : SessionStore DiskStore where
  load := load
  store := store
  remove := remove
  removeSession := removeSession
  destroy := destroy

end DiskStore

end StatefulPages
