import StatefulPages.Disk.Path
import StatefulPages.Disk.Tree
import StatefulPages.Heap

/-!
# Disks

A `Disk` has a tree of folders and files. What a file holds is kept apart from its name, so that a
file that was opened can still be read and written after its name is gone.

A call may also fail for reasons that lie outside: `faults` says which calls do, counting them from
zero, and `limit` how large files can be. A write that fails in this way may have written some of
its bytes. On a disk without faults and limit (`Disk.Sound`) only the state of the tree decides.

* `walk_eq_get?`: what a walk finds is what is at the location where it ends.
-/

namespace StatefulPages

/-! ## What files hold -/

/-- What a file holds: its size, and its bytes; those beyond the size are zero. -/
structure Content where
  size : Nat
  byte : Nat → UInt8

namespace Content

/-- An empty file. -/
def empty : Content := { size := 0, byte := fun _ => 0 }

instance : Inhabited Content := ⟨empty⟩

/-- The byte at `i` after `data` was written at `offset`. -/
def overlay (byte : Nat → UInt8) (offset : Nat) (data : Array UInt8) (i : Nat) : UInt8 :=
  if offset ≤ i then data[i - offset]?.getD (byte i) else byte i

/-- Writes bytes. A gap behind the end becomes zeros; writing nothing changes nothing. -/
def write (c : Content) (offset : Nat) (data : List UInt8) : Content :=
  if data = [] then c
  else { size := max c.size (offset + data.length), byte := overlay c.byte offset data.toArray }

/-- The `n` bytes from `offset`. -/
def slice (c : Content) (offset n : Nat) : List UInt8 :=
  (List.range' offset n).map c.byte

/-- All bytes. -/
def toList (c : Content) : List UInt8 :=
  c.slice 0 c.size

/-- A file with these bytes. -/
def ofList (data : List UInt8) : Content :=
  empty.write 0 data

end Content

/-! ## Calls -/

/-- Why a call fails whatever the disk holds, and how many bytes a write has written by then. -/
structure Fault where
  error : IoError
  written : Nat := 0
  /-- Indicates that the permission for the call is missing. -/
  denied : Bool := false
  deriving DecidableEq, Repr, Inhabited

/-- The limit on offsets in files that operating systems have. -/
def maxFileSize : Nat := 0x8000000000000000

/-- Folders and files. -/
structure Disk where
  root : Tree := .empty
  contents : Heap Content := .empty
  /-- The working folder, where paths begin that are not absolute. -/
  home : Location := []
  /-- How many calls have been made. -/
  calls : Nat := 0
  /-- The calls that fail. -/
  faults : Nat → Option Fault := fun _ => none
  /-- A bound that offsets and ends of files stay below. -/
  limit : Option Nat := some maxFileSize

namespace Disk

/-- A disk on which there is the working folder `home` and the folders above it. -/
def ofHome (home : Location) : Disk :=
  { root := (Tree.empty.makeFolders home).2, home }

instance : Inhabited Disk := ⟨ofHome []⟩

/-- Indicates that calls fail only for reasons in the tree. -/
def Sound (d : Disk) : Prop :=
  (∀ n, d.faults n = none) ∧ d.limit = none

/-- Indicates an offset that no file can have. -/
def exceeds (d : Disk) (offset : Nat) : Bool :=
  d.limit.any (· ≤ offset)

/-- Indicates that the permission for the next call is missing. -/
def isDenied (d : Disk) : Bool :=
  (d.faults d.calls).any (·.denied)

/-- Makes a call, which may be one that fails. -/
def call {α : Type} (d : Disk) (run : Disk → Except IoError α × Disk) :
    Except IoError α × Disk :=
  match d.faults d.calls with
  | some fault => (.error fault.error, { d with calls := d.calls + 1 })
  | none => run { d with calls := d.calls + 1 }

/-- What is at a location. -/
def get? (d : Disk) (place : Location) : Option Tree :=
  Tree.get? (some d.root) place

/-- Makes `t` what is at a location, or deletes what is there. -/
def put (d : Disk) (place : Location) (t : Option Tree) : Disk :=
  { d with root := (Tree.update (fun _ => t) (some d.root) place).getD d.root }

/-! ## Finding places -/

/-- The longest path in bytes. -/
def maxPathLength : Nat := 4095

/-- Where parts lead to from a location, which `above` has in reverse, and what is there. All but
the last have to lead to a folder. -/
def walk (d : Disk) : (above : List String) → (here : Option Tree) → (parts : List String) →
    Except IoError (Location × Option Tree)
  | above, here, [] => .ok (above.reverse, here)
  | above, some (.folder entries), part :: parts =>
    if part = "." then d.walk above (some (.folder entries)) parts
    else if part = ".." then d.walk above.tail (d.get? above.tail.reverse) parts
    else if Tree.maxNameLength < part.utf8ByteSize then .error .nameTooLong
    else d.walk (part :: above) (entries.get? part) parts
  | _, some (.file _), _ :: _ => .error .notAFolder
  | _, none, _ :: _ => .error .notFound

/-- What a walk finds is what is at the location where it ends. -/
theorem walk_eq_get? {d : Disk} {above : List String} {here : Option Tree} {parts : List String}
    {place : Location} {t : Option Tree} (h : d.get? above.reverse = here)
    (hw : d.walk above here parts = .ok (place, t)) : d.get? place = t := by
  induction parts generalizing above here with
  | nil =>
    simp only [walk, Except.ok.injEq, Prod.mk.injEq] at hw
    rw [← hw.1, ← hw.2, h]
  | cons part parts ih =>
    match here, h, hw with
    | some (.folder entries), h, hw =>
      rw [walk] at hw
      split at hw
      · exact ih h hw
      · split at hw
        · exact ih rfl hw
        · split at hw
          · cases hw
          · refine ih ?_ hw
            rw [List.reverse_cons, get?, Tree.get?_append, ← get?, h]
            rfl
    | some (.file _), _, hw => cases hw
    | none, _, hw => cases hw

/-- Where a path begins. -/
def start (d : Disk) (p : Path) : Location :=
  if p.isAbsolute then [] else d.home

/-- What is wrong with the text of a path, whatever there is on the disk. -/
def badPath? (p : Path) : Option IoError :=
  if '\x00' ∈ p.text.toList then some .invalidPath
  else if maxPathLength < p.text.utf8ByteSize then some .nameTooLong
  else none

/-- Where parts of a path lead to from where it begins, and what is there. -/
def walkParts (d : Disk) (p : Path) (parts : List String) :
    Except IoError (Location × Option Tree) :=
  match badPath? p with
  | some e => .error e
  | none => d.walk (d.start p).reverse (d.get? (d.start p)) parts

/-- Where a path leads to, and what is there. -/
def locate (d : Disk) (p : Path) : Except IoError (Location × Option Tree) :=
  if p.text = "" then .error .notFound else d.walkParts p p.parts

/-- Where a path leads to that has to lead to something, and what is there. -/
def lookup (d : Disk) (p : Path) : Except IoError (Location × Tree) :=
  match d.locate p with
  | .error e => .error e
  | .ok (_, none) => .error .notFound
  | .ok (place, some (.file n)) =>
    if p.isForFolder then .error .notAFolder else .ok (place, .file n)
  | .ok (place, some (.folder entries)) => .ok (place, .folder entries)

/-- Indicates that a path leads to a folder. -/
def isFolder (d : Disk) (p : Path) : Bool :=
  match d.lookup p with
  | .ok (_, .folder _) => true
  | _ => false

/-- Indicates that a path leads to something. -/
def isThere (d : Disk) (p : Path) : Bool :=
  (d.lookup p).isOk

/-- The size of the file that a path leads to. -/
def fileSize? (d : Disk) (p : Path) : Option Nat :=
  match d.lookup p with
  | .ok (_, .file n) => some (d.contents.get n).size
  | _ => none

/-! ## Folders -/

/-- Makes the folders on the way of the names from a location, which `above` has in reverse. One
that is left again by `..` is made too. -/
def makeFolders (root : Tree) : (above : List String) → (names : List String) →
    Except IoError Unit × Tree
  | above, [] => root.makeFolders above.reverse
  | above, name :: names =>
    if name = ".." then
      match root.makeFolders above.reverse with
      | (.error e, root) => (.error e, root)
      | (.ok (), root) => makeFolders root above.tail names
    else makeFolders root (name :: above) names

/-- Makes a folder and those above it. A path that ends in `.` says that the folder is there: only
those above it are made. -/
def createFolders (d : Disk) (p : Path) : Except IoError Unit × Disk :=
  d.call fun d =>
    match badPath? p with
    | some e => (.error e, d)
    | none =>
      let isDotted := p.parts.getLast? == some "."
      let names := if isDotted then p.names.dropLast else p.names
      let (result, root) := makeFolders d.root (d.start p).reverse names
      let d := { d with root }
      match result with
      | .error e => (.error e, d)
      | .ok () => (if isDotted && !d.isFolder p then .error .notFound else .ok (), d)

/-- Deletes a folder with all that is in it. -/
def deleteFolder (d : Disk) (p : Path) : Except IoError Unit × Disk :=
  d.call fun d =>
    match d.lookup p with
    | .error e => (.error e, d)
    | .ok (_, .file _) => (.error .notAFolder, d)
    | .ok (place, .folder _) => (.ok (), d.put place none)

/-! ## Files -/

/-- Makes an empty file. -/
def addFile (d : Disk) (place : Location) : Nat × Disk :=
  (d.contents.next,
    { d.put place (some (.file d.contents.next)) with contents := d.contents.add .empty })

/-- Why no file can be made at a path that ends in a slash. -/
def whyNoFile (d : Disk) (p : Path) : IoError :=
  match d.walkParts p p.parts.dropLast with
  | .error e => e
  | .ok (_, some (.folder _)) => .isAFolder
  | .ok (_, some (.file _)) => .notAFolder
  | .ok (_, none) => .notFound

/-- Opens a file for reading and writing; one that is missing is made if `create` is set. -/
def openFile (d : Disk) (p : Path) (create : Bool) : Except IoError Nat × Disk :=
  d.call fun d =>
    if create && p.isForFolder then (.error (d.whyNoFile p), d)
    else match d.locate p with
    | .error e => (.error e, d)
    | .ok (_, some (.folder _)) => (.error .isAFolder, d)
    | .ok (_, some (.file n)) => if p.isForFolder then (.error .notAFolder, d) else (.ok n, d)
    | .ok (place, none) =>
      if create then
        let (n, d) := d.addFile place
        (.ok n, d)
      else (.error .notFound, d)

/-- Writes bytes into an open file. -/
def writeAt (d : Disk) (number offset : Nat) (data : List UInt8) : Except IoError Unit × Disk :=
  let written := fun (d : Disk) data =>
    { d with contents := d.contents.set number ((d.contents.get number).write offset data) }
  if data = [] then (.ok (), d)
  else match d.faults d.calls with
  | some fault =>
    (.error fault.error, written { d with calls := d.calls + 1 } (data.take fault.written))
  | none =>
    let d := { d with calls := d.calls + 1 }
    if d.exceeds (offset + data.length) then (.error .invalidOffset, d)
    else (.ok (), written d data)

/-- Reads `n` bytes of an open file. -/
def readAt (d : Disk) (number offset n : Nat) : Except IoError (List UInt8) × Disk :=
  if n = 0 then (.ok [], d)
  else d.call fun d =>
    if d.exceeds (offset + n) then (.error .invalidOffset, d)
    else if offset + n ≤ (d.contents.get number).size then
      (.ok ((d.contents.get number).slice offset n), d)
    else (.error .unexpectedEnd, d)

/-- Reads all of a file. -/
def readAll (d : Disk) (p : Path) : Except IoError (List UInt8) × Disk :=
  d.call fun d =>
    match d.lookup p with
    | .error e => (.error e, d)
    | .ok (_, .folder _) => (.error .isAFolder, d)
    | .ok (_, .file n) => (.ok (d.contents.get n).toList, d)

/-- Makes `data` all that a file holds; one that is missing is made. -/
def writeAll (d : Disk) (p : Path) (data : List UInt8) : Except IoError Unit × Disk :=
  match d.openFile p true with
  | (.error e, d) => (.error e, d)
  | (.ok n, d) =>
    { d with contents := d.contents.set n .empty }.writeAt n 0 data

/-- Deletes a file. -/
def deleteFile (d : Disk) (p : Path) : Except IoError Unit × Disk :=
  d.call fun d =>
    match d.lookup p with
    | .error e => (.error e, d)
    | .ok (_, .folder _) => (.error .isAFolder, d)
    | .ok (place, .file _) => (.ok (), d.put place none)

end Disk

end StatefulPages
