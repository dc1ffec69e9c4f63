import StatefulPages.Disk.Basic

/-!
# Pools of open files

A `FilePool` keeps files open between uses, up to a number. A borrower gets a `Channel` and gives it
back; when another file is to be opened and the pool is full, files that nobody borrows are closed,
the one first that was used the longest time ago. Files that are borrowed are never closed for that,
so that a pool may hold more files than its capacity.

A file may be deleted and made anew while it is borrowed. The channel then still has the file that
was deleted, and its return does not count for the new one: `Handle.opening` tells them apart.
-/

namespace StatefulPages

/-- A file that was opened. -/
structure Handle where
  /-- How many files the pool had opened before this one. -/
  opening : Nat
  /-- The number of the file on the disk. -/
  file : Nat
  deriving DecidableEq, Repr, Inhabited

/-- A file that a pool holds open. -/
structure PooledFile where
  path : Path
  handle : Handle
  /-- How many channels of this handle have not been given back. -/
  borrows : Nat
  /-- The time of the last borrowing or return. -/
  lastUsed : Nat
  deriving DecidableEq, Repr, Inhabited

/-- A file that is borrowed from a pool. -/
structure Channel where
  path : Path
  handle : Handle
  deriving DecidableEq, Repr, Inhabited

/-- The files that are held open. -/
structure FilePool where
  capacity : Nat
  /-- At most one for each path. -/
  files : List PooledFile := []
  /-- Counts the uses. -/
  time : Nat := 0
  /-- How many files have been opened. -/
  openings : Nat := 0
  deriving DecidableEq, Repr, Inhabited

namespace FilePool

/-- An empty pool, with room for at least one file. -/
def ofCapacity (capacity : Nat) : FilePool :=
  { capacity := max capacity 1 }

/-- The file that is open at a path. -/
def find? (pool : FilePool) (p : Path) : Option PooledFile :=
  pool.files.find? (·.path.isSame p)

/-- Indicates that the file at a path is open. -/
def isOpen (pool : FilePool) (p : Path) : Bool :=
  (pool.find? p).isSome

/-! ## Closing files -/

/-- The file that was used the longest time ago. -/
def leastRecent? : List PooledFile → Option PooledFile
  | [] => none
  | f :: files =>
    match leastRecent? files with
    | some g => if f.lastUsed ≤ g.lastUsed then some f else some g
    | none => some f

/-- Closes up to `n` idle files, the one used the longest time ago first, until there is room for
one more file. -/
def closeIdle (capacity : Nat) : (n : Nat) → List PooledFile → List PooledFile
  | 0, files => files
  | n + 1, files =>
    if files.length < capacity then files
    else match leastRecent? (files.filter (·.borrows = 0)) with
      | some f => closeIdle capacity n (files.erase f)
      | none => files

/-- Closes the file at a path. -/
def close (pool : FilePool) (p : Path) : FilePool :=
  { pool with files := pool.files.filter fun f => !f.path.isSame p }

/-- Closes all files. -/
def closeAll (pool : FilePool) : FilePool :=
  { pool with files := [] }

/-! ## Borrowing -/

/-- A use of the pool: time goes on. -/
def tick (pool : FilePool) : FilePool :=
  { pool with time := pool.time + 1 }

/-- Changes the open file at a path. -/
def modify (pool : FilePool) (p : Path) (change : PooledFile → PooledFile) : FilePool :=
  { pool with files := pool.files.map fun f => if f.path.isSame p then change f else f }

/-- Borrows a file that is open. -/
def borrow? (pool : FilePool) (p : Path) : Option (Channel × FilePool) :=
  (pool.find? p).map fun f =>
    ({ path := p, handle := f.handle },
      pool.modify p fun f => { f with borrows := f.borrows + 1, lastUsed := pool.time })

/-- Takes in a file that has just been opened, and lends it. -/
def lend (pool : FilePool) (p : Path) (file : Nat) : Channel × FilePool :=
  let handle : Handle := { opening := pool.openings, file }
  let files := closeIdle pool.capacity pool.files.length pool.files
  ({ path := p, handle },
    { pool with files := { path := p, handle, borrows := 1, lastUsed := pool.time } :: files
                openings := pool.openings + 1 })

/-- Takes a channel back. -/
def giveBack (pool : FilePool) (c : Channel) : FilePool :=
  let pool := pool.tick
  pool.modify c.path fun f =>
    if f.handle = c.handle then { f with borrows := f.borrows - 1, lastUsed := pool.time } else f

end FilePool

/-- A disk, with the files on it that are open. -/
structure Files where
  pool : FilePool
  disk : Disk
  deriving Inhabited

namespace Files

/-- Borrows the file at a path, which is opened if it is not. One that is missing is made for
writing; for reading there is none then. -/
def borrow (files : Files) (p : Path) (writing : Bool) :
    Except IoError (Option Channel) × Files :=
  let pool := files.pool.tick
  match pool.borrow? p with
  | some (channel, pool) => (.ok (some channel), { files with pool })
  | none =>
    match files.disk.openFile p writing with
    | (.ok file, disk) =>
      let (channel, pool) := pool.tick.lend p file
      (.ok (some channel), { pool, disk })
    | (.error e, disk) =>
      if !writing ∧ e = .notFound then (.ok none, { pool, disk }) else (.error e, { pool, disk })

/-- Takes a channel back. -/
def giveBack (files : Files) (c : Channel) : Files :=
  { files with pool := files.pool.giveBack c }

/-- Writes to a borrowed file. -/
def write (files : Files) (c : Channel) (offset : Nat) (data : List UInt8) :
    Except IoError Unit × Files :=
  let (result, disk) := files.disk.writeAt c.handle.file offset data
  (result, { files with disk })

/-- Reads from a borrowed file. -/
def read (files : Files) (c : Channel) (offset size : Nat) :
    Except IoError (List UInt8) × Files :=
  let (result, disk) := files.disk.readAt c.handle.file offset size
  (result, { files with disk })

/-- Closes and deletes the file at a path; those who have borrowed it keep it. -/
def delete (files : Files) (p : Path) : Files :=
  { pool := files.pool.close p, disk := (files.disk.deleteFile p).2 }

/-- Closes all files. -/
def closeAll (files : Files) : Files :=
  { files with pool := files.pool.closeAll }

end Files

end StatefulPages
