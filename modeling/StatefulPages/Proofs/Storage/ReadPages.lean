import StatefulPages.Proofs.Storage.FailedWrites
import StatefulPages.Proofs.Storage.StoreSessions
import StatefulPages.Storage.MemoryStore

/-!
# Pages that are read

To read a page changes neither it nor any other page. A store in memory stays the same; one on disk may open
a file and counts the calls, but its sessions and all that is on the disk are as before.

* `LastingPages`: a store with the pages that it has, which are not changed by reading;
* `DiskStore.load_eq`: what reading changes of a store on disk;
* `LastingPages.pages_run`: any number of pages may be read.
-/

namespace StatefulPages

/-- A store with the pages that it has of each session. To read one changes none of them. -/
class LastingPages (σ : Type) [SessionStore σ] where
  /-- The pages of a session with their bytes, the oldest first. -/
  pages : σ → SessionId → List StoredPage
  pages_load (s : σ) (session : SessionId) (page : PageId) (id : SessionId) :
    pages (SessionStore.load s session page).2 id = pages s id

instance : LastingPages MemoryStore where
  pages := MemoryStore.pages
  pages_load _ _ _ _ := rfl

/-- Any number of pages may be read. -/
theorem LastingPages.pages_run {σ : Type} [SessionStore σ] [LastingPages σ] (s : σ)
    (session : SessionId) (ids : List PageId) (id : SessionId) :
    pages (SessionStore.run s (ids.map (.load session))) id = pages s id := by
  induction ids generalizing s with
  | nil => rfl
  | cons page ids ih => exact (ih _).trans (pages_load s session page id)

/-! ## On disk -/

/-- A file that is opened to be read is not made. -/
theorem Disk.openFile_of_reading (d : Disk) (p : Path) : (d.openFile p false).2 = d.tick := by
  rw [openFile, call]
  split
  · rfl
  · dsimp only
    rw [Bool.false_and, if_neg Bool.false_ne_true]
    split
    · rfl
    · rfl
    · split <;> rfl
    · rfl

/-- Borrowing a file to read it opens it at most. -/
theorem Files.borrow_of_reading (files : Files) (p : Path) : ∃ pool calls,
    (files.borrow p false).2 = { pool, disk := { files.disk with calls } } := by
  cases hfind : files.pool.find? p with
  | some f =>
    rw [borrow_of_find hfind]
    exact ⟨_, files.disk.calls, rfl⟩
  | none =>
    have hopen := files.disk.openFile_of_reading p
    rw [borrow_of_none hfind]
    generalize files.disk.openFile p false = opened at hopen
    obtain ⟨result, disk⟩ := opened
    obtain rfl : disk = files.disk.tick := hopen
    cases result with
    | ok n => exact ⟨_, files.disk.calls + 1, rfl⟩
    | error e => exact ⟨_, files.disk.calls + 1, rfl⟩

/-- Reading a page changes which files are open, and what has been counted. -/
theorem Session.load_eq (e : Session) (page : PageId) (files : Files) : ∃ pool calls,
    (e.load page files).2 = { pool, disk := { files.disk with calls } } := by
  rw [load]
  split
  · exact ⟨files.pool, files.disk.calls, rfl⟩
  · rename_i window _
    obtain ⟨pool, calls, hborrow⟩ := files.borrow_of_reading e.dataFile
    generalize files.borrow e.dataFile false = borrowed at hborrow
    obtain ⟨result, used⟩ := borrowed
    obtain rfl : used = _ := hborrow
    split
    · rename_i c used heq
      cases heq
      obtain ⟨read, hread⟩ :=
        Disk.disk_readAt { files.disk with calls } c.handle.file window.offset window.size
      exact ⟨_, read, congrArg (Files.mk _) hread⟩
    · rename_i heq
      cases heq
      exact ⟨pool, calls, rfl⟩

namespace DiskStore

/-- The pages of a session, with the bytes that lie in its data file. -/
def storedPages (s : DiskStore) (id : SessionId) : List StoredPage :=
  match s.object? id with
  | some e =>
    if e.unbound then []
    else (s.files.disk.fileAt? e.dataFile).elim [] fun n => e.table.pagesIn (s.files.disk.contents.get n)
  | none => []

/-- Reading a page leaves the sessions and the disk as they are. -/
theorem load_eq (s : DiskStore) (id : SessionId) (page : PageId) : ∃ pool calls,
    (s.load id page).2 = { s with files := { pool, disk := { s.files.disk with calls } } } := by
  rw [load]
  split
  · rename_i ref _
    obtain ⟨pool, calls, hload⟩ := (s.objects.get ref).load_eq page s.files
    exact ⟨pool, calls, congrArg (fun files => { s with files }) hload⟩
  · exact ⟨s.files.pool, s.files.disk.calls, rfl⟩

instance : LastingPages DiskStore where
  pages := storedPages
  pages_load s session page id := by
    obtain ⟨pool, calls, hload⟩ := s.load_eq session page
    have hfile : ∀ p, Disk.fileAt? { s.files.disk with calls } p = s.files.disk.fileAt? p := by
      intro p
      rw [Disk.fileAt?, Disk.lookup_calls, Disk.fileAt?]
    show storedPages (s.load session page).2 id = s.storedPages id
    rw [hload, storedPages, storedPages]
    simp only [hfile]
    rfl

end DiskStore

end StatefulPages
