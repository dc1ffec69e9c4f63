import StatefulPages.Inspect.Problem
import StatefulPages.Storage.Index
import StatefulPages.Storage.StoreFolder
import StatefulPages.Text.HexDump
import StatefulPages.Text.Quoted

/-!
# A look at the files of a store

`listSessions` shows what the index of a store holds, and `readPage` reads a page from the data file
of its session. Neither changes a file, nor checks that the layouts are consistent.
-/

namespace StatefulPages.Inspect

def decimalText (n : Nat) : String :=
  String.ofList (Text.decimal n)

/-- A number to base 16, at least `width` digits long. -/
def hexText (width n : Nat) : String :=
  "0x" ++ String.ofList (Text.hexPadded width n)

/-- Reads the index. -/
def readIndex (folder : StoreFolder) (d : Disk) : Except Problem StoreIndex :=
  let file := folder.indexFile
  match blame ("Failed to read index file " ++ file.text) (d.readAll file).1 with
  | .error p => .error p
  | .ok bytes =>
    match StoreIndex.parse bytes with
    | .ok index => .ok index
    | .error e => .error { message := e.message }

/-- The data file of a session. -/
def dataFile (folder : StoreFolder) (session : SessionId) : Path :=
  StoreFolder.dataFileIn (folder.sessionFolder session)

/-! ## Sessions -/

/-- The size that a disk gives for a folder. -/
def folderSize : Nat := 4096

/-- The size that a disk gives for what is at a path. -/
def sizeAt? (d : Disk) (p : Path) : Option Nat :=
  match d.lookup p with
  | .ok (_, .file number) => some (d.contents.get number).size
  | .ok (_, .folder _) => some folderSize
  | .error _ => none

def windowLine (w : WindowRecord) : String :=
  "    page " ++ String.ofList (Text.padLeft 8 ' ' (Text.decimal w.page.toNat)) ++ " : offset " ++
    hexText 8 w.offset.toNat ++ ", size " ++ hexText 6 w.size.toNat

def freeLine (r : FreeRecord) : String :=
  "    free          : offset " ++ hexText 8 r.offset.toNat ++ ", size " ++ hexText 6 r.size.toNat

/-- The lines for a session, with those for its windows and free ranges if `pages` is set. -/
def sessionLines (folder : StoreFolder) (d : Disk) (pages : Bool) (s : SessionRecord) :
    List String :=
  let file := dataFile folder s.id
  let size := (sizeAt? d file).elim "missing" fun n => decimalText n ++ " bytes"
  ["", "session " ++ Text.quoted s.id,
    "    pages     : " ++ decimalText s.windows.length,
    "    page bytes: " ++ decimalText s.layout.totalSize,
    "    file end  : " ++ decimalText s.fileEnd.toNat,
    "    data file : " ++ file.text ++ " (" ++ size ++ ")"] ++
    if pages then s.windows.map windowLine ++ s.free.map freeLine else []

/-- Lists the sessions in the index. -/
def listSessions (folder : StoreFolder) (pages : Bool) (d : Disk) : Except Problem (List String) :=
  if d.isThere folder.indexFile then
    (readIndex folder d).map fun index =>
      (decimalText index.sessions.length ++ " sessions") ::
        index.sessions.flatMap (sessionLines folder d pages)
  else
    let place := "There is no index at " ++ folder.indexFile.text
    .error { message := place ++ ". The store is either empty, or still running." }

/-! ## Pages -/

/-- The window of a page, as the index has it. -/
def findWindow (index : StoreIndex) (session : SessionId) (page : PageId) :
    Except Problem WindowRecord :=
  match index.sessions.find? (·.id = session) with
  | none =>
    .error { message := "The index has no session named " ++ Text.quoted session ++ "." }
  | some s =>
    match s.windows.find? (·.page = page) with
    | some w => .ok w
    | none =>
      let owner := "Session " ++ Text.quoted session
      .error { message := owner ++ " has no page " ++ decimalText page.toNat ++ "." }

/-- Reads `n` bytes of a file. Of a folder nothing can be read. -/
def readTree (t : Tree) (offset n : Nat) (d : Disk) : Except IoError (List UInt8) :=
  match t with
  | .file number => (d.readAt number offset n).1
  | .folder _ => if n = 0 then .ok [] else .error .isAFolder

/-- Reads the first `n` bytes of a window. -/
def readWindow (file : Path) (w : WindowRecord) (n : Nat) (d : Disk) :
    Except Problem (List UInt8) :=
  match blame ("Failed to open " ++ file.text) (d.lookup file) with
  | .error p => .error p
  | .ok (_, t) =>
    if d.exceeds w.offset.toNat then .error { message := IoError.invalidOffset.text }
    else
      blame ("The data file is shorter than the window of page " ++ decimalText w.page.toNat ++
        " (offset " ++ hexText 1 w.offset.toNat ++ ", size " ++ hexText 1 w.size.toNat ++ ").")
        (readTree t w.offset.toNat n d)

/-- Reads a page from the files of a store: its window, and its bytes up to a length. -/
def readPage (folder : StoreFolder) (session : SessionId) (page : PageId) (length : Option UInt32)
    (d : Disk) : Except Problem (WindowRecord × List UInt8) :=
  match readIndex folder d with
  | .error p => .error p
  | .ok index =>
    match findWindow index session page with
    | .error p => .error p
    | .ok w =>
      let n := length.elim w.size.toNat fun n => min n.toNat w.size.toNat
      (readWindow (dataFile folder session) w n d).map fun data => (w, data)

/-- Dumps a page. -/
def dumpPage (folder : StoreFolder) (session : SessionId) (page : PageId) (length : Option UInt32)
    (d : Disk) : Except Problem (List String) :=
  (readPage folder session page length d).map fun (w, data) =>
    ("page " ++ decimalText w.page.toNat ++ " : offset " ++ hexText 1 w.offset.toNat ++ ", size " ++
      hexText 1 w.size.toNat) :: Text.hexDump data

end StatefulPages.Inspect
