import StatefulPages.Storage.FilePool
import StatefulPages.Storage.StoreFolder
import StatefulPages.Storage.WindowTable
import StatefulPages.Text.Decimal

/-!
# Sessions on disk

The pages of a `Session` lie in one data file, where its window table says. Nothing is made on disk
before the first page is saved. A page that cannot be written is not stored, and what was not read
in full is not there.

A session ends with `Session.unbind`, which deletes its files. From then on it does nothing, even
for those who still hold it.
-/

namespace StatefulPages

/-- The pages of a session on disk. -/
structure Session where
  id : SessionId
  folder : Path
  table : WindowTable
  /-- Indicates that the folder is known to be there. -/
  folderReady : Bool := false
  /-- Indicates that the session has ended. -/
  unbound : Bool := false
  deriving DecidableEq, Repr, Inhabited

namespace Session

/-- A session without pages. -/
def ofFolder (id : SessionId) (folder : Path) (budget : Nat) : Session :=
  { id, folder, table := { budget } }

/-- A session whose pages are in its data file already, as the layout says. -/
def ofLayout (id : SessionId) (folder : Path) (layout : Layout) (budget : Nat) (disk : Disk) :
    Except LayoutError Session :=
  (WindowTable.ofLayout layout budget).map fun table =>
    { id, folder, table, folderReady := disk.isFolder folder }

/-- The file that holds the pages. -/
def dataFile (s : Session) : Path :=
  StoreFolder.dataFileIn s.folder

/-- The number of pages. -/
def pageCount (s : Session) : Nat :=
  s.table.windows.length

/-- The window of a page, unless the session has ended. -/
def window? (s : Session) (page : PageId) : Option Window :=
  if s.unbound then none else s.table.find? page

/-- The layout of the data file, unless the session has ended. -/
def layout? (s : Session) : Option Layout :=
  if s.unbound then none else some s.table.toLayout

/-! ## Saving -/

/-- How often it is tried to make the folder of a session. -/
def folderAttempts : Nat := 50

/-- Makes a folder in at most `n` attempts, and tells whether one succeeded. -/
def makeFolder (folder : Path) : (n : Nat) → Disk → Bool × Disk
  | 0, d => (false, d)
  | n + 1, d =>
    match d.createFolders folder with
    | (.ok _, d) => (true, d)
    | (.error _, d) => makeFolder folder n d

/-- Makes the folder, unless it is known to be there. -/
def prepare (s : Session) (files : Files) : Session × Files :=
  if s.folderReady then (s, files)
  else
    let (folderReady, disk) := makeFolder s.folder folderAttempts files.disk
    ({ s with folderReady }, { files with disk })

/-- Writes to the data file. -/
def writeData (s : Session) (offset : Nat) (data : List UInt8) (files : Files) :
    Except IoError Unit × Files :=
  match files.borrow s.dataFile true with
  | (.ok (some channel), files) =>
    let (result, files) := files.write channel offset data
    (result, files.giveBack channel)
  | (.ok none, files) => (.error .notFound, files)
  | (.error e, files) => (.error e, files)

/-- The bound on the sizes of pages. -/
def maxPageSize : Nat := Text.wordCount

/-- Stores a page. One that is empty or too large is left out; one that cannot be written is
forgotten. -/
def save (s : Session) (page : PageId) (data : List UInt8) (files : Files) : Session × Files :=
  if data = [] ∨ maxPageSize ≤ data.length ∨ s.unbound then (s, files)
  else
    let (s, files) := s.prepare files
    let (window, table) := s.table.create page data.length
    match s.writeData window.offset data files with
    | (.ok _, files) => ({ s with table }, files)
    | (.error _, files) => ({ s with table := table.remove page }, files)

/-! ## Reading and removing -/

/-- Reads a page. -/
def load (s : Session) (page : PageId) (files : Files) : Option (List UInt8) × Files :=
  match s.window? page with
  | none => (none, files)
  | some window =>
    match files.borrow s.dataFile false with
    | (.ok (some channel), files) =>
      let (result, files) := files.read channel window.offset window.size
      (result.toOption, files.giveBack channel)
    | (_, files) => (none, files)

/-- Forgets a page, whose bytes become free. -/
def remove (s : Session) (page : PageId) : Session :=
  if s.unbound then s else { s with table := s.table.remove page }

/-- Ends the session: its data file is closed, and its folder deleted. -/
def unbind (s : Session) (files : Files) : Session × Files :=
  if s.unbound then (s, files)
  else
    let files := files.delete s.dataFile
    ({ s with unbound := true }, { files with disk := (files.disk.deleteFolder s.folder).2 })

end Session

end StatefulPages
