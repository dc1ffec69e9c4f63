import StatefulPages.Storage.Layout
import StatefulPages.Storage.LittleEndian
import StatefulPages.Text.Decimal
import StatefulPages.Text.Utf8

/-!
# The index file of a store

When a store is closed it writes the layouts of all data files to its index. All numbers are
little-endian:

* the header: 8 bytes that mark an index, the version and the number of sessions;
* for each session the length of its id, the numbers of windows and of free ranges, 4 bytes that are
  reserved, and the end of the data file; then its id, its windows and its free ranges.

`StoreIndex.toBytes` fails if a number does not fit into its field, and `StoreIndex.parse` accepts
what it wrote, whatever the reserved bytes are.
-/

namespace StatefulPages

/-- A window as the index holds it. -/
structure WindowRecord where
  page : PageId
  size : UInt32
  offset : UInt64
  deriving DecidableEq, Repr, Inhabited

/-- A free range as the index holds it. -/
structure FreeRecord where
  offset : UInt64
  size : UInt64
  deriving DecidableEq, Repr, Inhabited

/-- A session as the index holds it. -/
structure SessionRecord where
  id : String
  windows : List WindowRecord := []
  free : List FreeRecord := []
  fileEnd : UInt64 := 0
  deriving DecidableEq, Repr, Inhabited

namespace SessionRecord

/-- The layout that a record stands for. -/
def layout (s : SessionRecord) : Layout where
  windows := s.windows.map fun w =>
    { page := w.page, offset := w.offset.toNat, size := w.size.toNat }
  free := s.free.map fun r => { offset := r.offset.toNat, size := r.size.toNat }
  fileEnd := s.fileEnd.toNat

/-- The record of a layout whose numbers fit into the fields. -/
def ofLayout (id : String) (l : Layout) : SessionRecord where
  id
  windows := l.windows.map fun w =>
    { page := w.page, size := UInt32.ofNat w.size, offset := UInt64.ofNat w.offset }
  free := l.free.map fun r => { offset := UInt64.ofNat r.offset, size := UInt64.ofNat r.size }
  fileEnd := UInt64.ofNat l.fileEnd

end SessionRecord

/-- The sessions of a store. -/
structure StoreIndex where
  sessions : List SessionRecord := []
  deriving DecidableEq, Repr, Inhabited

/-- Why bytes are no index, or why an index cannot be written. -/
inductive IndexError where
  | truncated
  | wrongMagic
  | unknownVersion (version : Nat)
  /-- The id of a session, counted from zero, is not UTF-8. -/
  | invalidId (session : Nat)
  | trailingBytes (count : Nat)
  | tooManySessions
  | tooLarge (id : String)
  deriving DecidableEq, Repr, Inhabited

/-- The message for an error. -/
def IndexError.message : IndexError → String
  | truncated => "The page store index is truncated."
  | wrongMagic => "The file is not a page store index (magic is wrong)."
  | unknownVersion version =>
    "The page store index has version " ++ String.ofList (Text.decimal version) ++
      ", but only version 1 is supported."
  | invalidId session =>
    "Session " ++ String.ofList (Text.decimal session) ++
      " in the page store index has an id that is not valid UTF-8."
  | trailingBytes count =>
    "The page store index has " ++ String.ofList (Text.decimal count) ++
      " bytes of trailing data."
  | tooManySessions => "Too many sessions to store in the page store index."
  | tooLarge id => "Session " ++ id ++ " is too large to store in the page store index."

namespace StoreIndex

/-- The bytes that an index begins with. -/
def magic : List UInt8 :=
  [0x54, 0x52, 0x4C, 0x53, 0x49, 0x44, 0x58, 0x00]

/-- The only version there is. -/
def version : Nat := 1

/-! ## Writing -/

/-- A number of 4 bytes. -/
def word32 (n : Nat) : List UInt8 := LittleEndian.toBytes 4 n

/-- A number of 8 bytes. -/
def word64 (n : Nat) : List UInt8 := LittleEndian.toBytes 8 n

def windowBytes (w : WindowRecord) : List UInt8 :=
  word32 w.page.toNat ++ word32 w.size.toNat ++ word64 w.offset.toNat

def freeBytes (r : FreeRecord) : List UInt8 :=
  word64 r.offset.toNat ++ word64 r.size.toNat

/-- Indicates that the counts of a session fit into their fields. -/
def fits (s : SessionRecord) : Bool :=
  (Text.Utf8.ofString s.id).length < Text.wordCount && s.windows.length < Text.wordCount &&
    s.free.length < Text.wordCount

def sessionHeader (s : SessionRecord) : List UInt8 :=
  word32 (Text.Utf8.ofString s.id).length ++ word32 s.windows.length ++ word32 s.free.length ++
    word32 0 ++ word64 s.fileEnd.toNat

def sessionBytes (s : SessionRecord) : List UInt8 :=
  sessionHeader s ++ Text.Utf8.ofString s.id ++ s.windows.flatMap windowBytes ++
    s.free.flatMap freeBytes

/-- Writes the sessions of an index. -/
def sessionsBytes : List SessionRecord → Except IndexError (List UInt8)
  | [] => .ok []
  | s :: ss =>
    if fits s then (sessionsBytes ss).map (sessionBytes s ++ ·) else .error (.tooLarge s.id)

/-- Writes an index. -/
def toBytes (index : StoreIndex) : Except IndexError (List UInt8) :=
  if index.sessions.length < Text.wordCount then
    (sessionsBytes index.sessions).map
      (magic ++ word32 version ++ word32 index.sessions.length ++ ·)
  else .error .tooManySessions

/-! ## Reading -/

/-- The first `n` bytes and those behind them. -/
def take (n : Nat) (bytes : List UInt8) : Except IndexError (List UInt8 × List UInt8) :=
  if (bytes.take n).length = n then .ok (bytes.take n, bytes.drop n) else .error .truncated

/-- The number in the `width` bytes from `start`. -/
def fieldAt (bytes : List UInt8) (start width : Nat) : Nat :=
  LittleEndian.ofBytes ((bytes.drop start).take width)

def windowOfBytes (bytes : List UInt8) : WindowRecord where
  page := UInt32.ofNat (fieldAt bytes 0 4)
  size := UInt32.ofNat (fieldAt bytes 4 4)
  offset := UInt64.ofNat (fieldAt bytes 8 8)

def freeOfBytes (bytes : List UInt8) : FreeRecord where
  offset := UInt64.ofNat (fieldAt bytes 0 8)
  size := UInt64.ofNat (fieldAt bytes 8 8)

/-- Reads `n` records of 16 bytes each. -/
def readRecords {α : Type} (record : List UInt8 → α) :
    (n : Nat) → List UInt8 → Except IndexError (List α × List UInt8)
  | 0, bytes => .ok ([], bytes)
  | n + 1, bytes => do
    let (head, bytes) ← take 16 bytes
    let (records, bytes) ← readRecords record n bytes
    .ok (record head :: records, bytes)

/-- Reads the session with this number. -/
def readSession (number : Nat) (bytes : List UInt8) :
    Except IndexError (SessionRecord × List UInt8) := do
  let (header, bytes) ← take 24 bytes
  let (idBytes, bytes) ← take (fieldAt header 0 4) bytes
  match Text.Utf8.toString? idBytes with
  | none => .error (.invalidId number)
  | some id =>
    let (windows, bytes) ← readRecords windowOfBytes (fieldAt header 4 4) bytes
    let (free, bytes) ← readRecords freeOfBytes (fieldAt header 8 4) bytes
    .ok ({ id, windows, free, fileEnd := UInt64.ofNat (fieldAt header 16 8) }, bytes)

/-- Reads `n` sessions, the first of which has this number. -/
def readSessions : (n number : Nat) → List UInt8 →
    Except IndexError (List SessionRecord × List UInt8)
  | 0, _, bytes => .ok ([], bytes)
  | n + 1, number, bytes => do
    let (session, bytes) ← readSession number bytes
    let (sessions, bytes) ← readSessions n (number + 1) bytes
    .ok (session :: sessions, bytes)

/-- Reads an index. -/
def parse (bytes : List UInt8) : Except IndexError StoreIndex := do
  let (header, bytes) ← take 16 bytes
  if header.take 8 ≠ magic then .error .wrongMagic
  else if fieldAt header 8 4 ≠ version then .error (.unknownVersion (fieldAt header 8 4))
  else
    let (sessions, bytes) ← readSessions (fieldAt header 12 4) 0 bytes
    if bytes = [] then .ok { sessions } else .error (.trailingBytes bytes.length)

end StoreIndex

end StatefulPages
