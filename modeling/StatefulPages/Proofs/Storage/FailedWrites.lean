import Mathlib.Logic.Relation
import StatefulPages.Proofs.Disk.LedFiles
import StatefulPages.Proofs.Storage.SessionFiles

/-!
# Writes that fail

On any disk, whatever calls fail, and whatever else is done to the disk and the pool, as long as the data
file of a session is left alone (`Session.Step`).

* `Files.Keeps`: a file stays where it is, with the bytes of some windows; this is so when it is borrowed,
  and when bytes outside the windows are written;
* `Session.Intact.step`, `Session.intact_of_reached`: all windows of a session lie in its data file;
* `Session.save_of_failure`: a page that cannot be written is the only one that is lost.
-/

namespace StatefulPages

/-! ## Files that stay -/

namespace Files

variable {files files' files'' : Files} {p : Path} {ws : List Window} {c : Channel}
  {offset : Nat} {data : List UInt8}

/-- Indicates that the file that the pool holds open at a path, if it does, is the file there. -/
def Honest (p : Path) (files : Files) : Prop :=
  ∀ q n, files.pool.Has q n → q.isSame p = true → files.disk.fileAt? p = some n

/-- Indicates that the file at a path is there still, and has the bytes of the windows still. -/
structure Keeps (p : Path) (ws : List Window) (files files' : Files) : Prop where
  honest : files.Honest p → files'.Honest p
  file : ∀ n, files.disk.fileAt? p = some n → files'.disk.fileAt? p = some n
  size_le : ∀ n, files.disk.fileAt? p = some n →
    (files.disk.contents.get n).size ≤ (files'.disk.contents.get n).size
  slice_eq : ∀ n, files.disk.fileAt? p = some n → ∀ w ∈ ws,
    (files'.disk.contents.get n).slice w.offset w.size =
      (files.disk.contents.get n).slice w.offset w.size

theorem Keeps.refl (p : Path) (ws : List Window) (files : Files) : Keeps p ws files files :=
  ⟨id, fun _ => id, fun _ _ => Nat.le_refl _, fun _ _ _ _ => rfl⟩

theorem Keeps.trans (h : Keeps p ws files files') (h' : Keeps p ws files' files'') :
    Keeps p ws files files'' where
  honest := h'.honest ∘ h.honest
  file := fun n hn => h'.file n (h.file n hn)
  size_le := fun n hn => Nat.le_trans (h.size_le n hn) (h'.size_le n (h.file n hn))
  slice_eq := fun n hn w hw => (h'.slice_eq n (h.file n hn) w hw).trans (h.slice_eq n hn w hw)

/-- A file stays as it is while nothing is gone, its content does not change, and the pool opens nothing. -/
theorem keeps_of_grows (hp : p.isForFolder = false) (hgrows : files.disk.Grows files'.disk)
    (hcontents : files'.disk.contents = files.disk.contents)
    (hpool : ∀ q n, files'.pool.Has q n → files.pool.Has q n) : Keeps p ws files files' where
  honest := fun h q n hq hsame => hgrows.fileAt? hp (h q n (hpool q n hq) hsame)
  file := fun n hn => hgrows.fileAt? hp hn
  size_le := fun n _ => Nat.le_of_eq (by rw [hcontents])
  slice_eq := fun n _ w _ => by rw [hcontents]

/-- What borrowing the file at a path does, whether or not the file can be opened. -/
structure Lent (p : Path) (ws : List Window) (files : Files)
    (result : Except IoError (Option Channel)) (files' : Files) : Prop where
  keeps : Keeps p ws files files'
  held : ∀ c, result = .ok (some c) → ∃ q, q.isSame p = true ∧ files'.pool.Has q c.handle.file

/-- A channel leads to the file at its path. -/
theorem Lent.file {result : Except IoError (Option Channel)} (h : Lent p ws files result files')
    (hhonest : files.Honest p) (hc : result = .ok (some c)) :
    files'.disk.fileAt? p = some c.handle.file := by
  obtain ⟨q, hsame, hheld⟩ := h.held c hc
  exact h.keeps.honest hhonest q _ hheld hsame

theorem lent_borrow (hp : p.isForFolder = false) (hparts : p.parts ≠ []) (ws : List Window)
    (files : Files) (writing : Bool) :
    Lent p ws files (files.borrow p writing).1 (files.borrow p writing).2 := by
  cases hfind : files.pool.find? p with
  | some f =>
    obtain ⟨hmem, hsame⟩ := FilePool.mem_and_isSame_of_find? hfind
    have hiff : ∀ q n, (files.pool.tick.modify p fun f => { f with
        borrows := f.borrows + 1, lastUsed := files.pool.tick.time }).Has q n ↔ files.pool.Has q n :=
      fun q n => FilePool.has_modify (fun _ => rfl) fun _ => rfl
    rw [borrow_of_find hfind]
    refine ⟨keeps_of_grows hp (.refl _) rfl fun q n => (hiff q n).1, fun c hc => ?_⟩
    cases hc
    exact ⟨f.path, hsame, (hiff f.path _).2 ⟨f, hmem, rfl, rfl⟩⟩
  | none =>
    rw [borrow_of_none hfind]
    rcases Disk.openFile_cases (d := files.disk) hp hparts writing with
      ⟨e, hopen⟩ | ⟨n, d, hopen, hfile, hgrows, hcontents⟩
    · rw [hopen]
      refine ⟨keeps_of_grows hp (Disk.grows_tick _) rfl fun q n hq => hq, fun c hc => ?_⟩
      dsimp only at hc
      split at hc <;> cases hc
    · rw [hopen]
      refine ⟨⟨fun h q m hq hsame => ?_, fun m hm => hgrows.fileAt? hp hm, fun m hm => ?_,
        fun m hm w _ => ?_⟩, fun c hc => ?_⟩
      · rcases FilePool.has_of_lend hq with hq | ⟨-, rfl⟩
        · exact hgrows.fileAt? hp (h q m hq hsame)
        · exact hfile
      · exact Nat.le_of_eq (by rw [hcontents m hm])
      · exact congrArg (fun contents => (contents.get m).slice w.offset w.size) (hcontents m hm)
      · cases hc
        exact ⟨p, p.isSame_self, FilePool.has_lend ..⟩

theorem keeps_giveBack (hp : p.isForFolder = false) (ws : List Window) (files : Files) (c : Channel) :
    Keeps p ws files (files.giveBack c) :=
  keeps_of_grows hp (.refl _) rfl fun _ _ => FilePool.has_giveBack.1

/-- What is written outside the windows leaves their bytes, also where not all of it is written. -/
theorem keeps_write (hp : p.isForFolder = false)
    (hfile : files.disk.fileAt? p = some c.handle.file)
    (hapart : ∀ b, offset ≤ b → b < offset + data.length → ¬ Window.Covers ws b) :
    Keeps p ws files (files.write c offset data).2 := by
  obtain ⟨calls, k, hwrite⟩ := Disk.disk_writeAt files.disk c.handle.file offset data
  have heq : (files.write c offset data).2 =
      { files with disk := (files.disk.writeAt c.handle.file offset data).2 } := rfl
  rw [heq, hwrite]
  have hgrows := Disk.grows_contents files.disk calls (files.disk.contents.set c.handle.file
    ((files.disk.contents.get c.handle.file).write offset (data.take k)))
  refine ⟨fun h q n hq hsame => hgrows.fileAt? hp (h q n hq hsame),
    fun n hn => hgrows.fileAt? hp hn, fun n hn => ?_, fun n hn w hw => ?_⟩
  · rw [hfile, Option.some.injEq] at hn
    subst hn
    rw [Heap.get_set_self]
    exact Content.size_le_write ..
  · rw [hfile, Option.some.injEq] at hn
    subst hn
    rw [Heap.get_set_self]
    refine Content.slice_write_of_apart fun b hlo hhi hb => ?_
    rw [List.length_take] at hb
    exact hapart b hb.1 (by omega) ⟨w, hw, hlo, hhi⟩

theorem keeps_read (hp : p.isForFolder = false) (ws : List Window) (files : Files) (c : Channel)
    (offset size : Nat) : Keeps p ws files (files.read c offset size).2 := by
  obtain ⟨calls, hread⟩ := Disk.disk_readAt files.disk c.handle.file offset size
  have heq : (files.read c offset size).2 =
      { files with disk := (files.disk.readAt c.handle.file offset size).2 } := rfl
  rw [heq, hread]
  exact keeps_of_grows hp ⟨rfl, .refl _⟩ rfl fun _ _ => id

/-- Indicates that the file at a path is open and has bytes at an offset. -/
structure Written (p : Path) (offset : Nat) (data : List UInt8) (files : Files) : Prop where
  opened : ∃ q n, files.pool.Has q n ∧ q.isSame p = true
  bytes : ∃ n, files.disk.fileAt? p = some n ∧
    offset + data.length ≤ (files.disk.contents.get n).size ∧
    (files.disk.contents.get n).slice offset data.length = data
  not_exceeds : files.disk.exceeds (offset + data.length) = false

end Files

/-! ## Sessions -/

namespace Session

variable {e : Session} {files files' : Files} {ws : List Window} {page : PageId} {offset : Nat}
  {data : List UInt8}

theorem isForFolder_dataFile (e : Session) : e.dataFile.isForFolder = false :=
  Path.isForFolder_join e.folder StoreFolder.isName_dataName

theorem parts_dataFile_ne (e : Session) : e.dataFile.parts ≠ [] := by
  rw [dataFile, StoreFolder.dataFileIn, Path.parts_join _ StoreFolder.isName_dataName]
  exact List.append_ne_nil_of_right_ne_nil _ (List.cons_ne_nil _ _)

theorem grows_makeFolder (folder : Path) (n : Nat) (d : Disk) :
    Disk.Grows d (makeFolder folder n d).2 ∧ (makeFolder folder n d).2.contents = d.contents := by
  induction n generalizing d with
  | zero => exact ⟨.refl d, rfl⟩
  | succ n ih =>
    obtain ⟨hgrows, hcontents⟩ := Disk.grows_createFolders d folder
    rw [makeFolder]
    split
    · rename_i hmade
      rw [hmade] at hgrows hcontents
      exact ⟨hgrows, hcontents⟩
    · rename_i hmade
      rw [hmade] at hgrows hcontents
      exact ⟨hgrows.trans (ih _).1, (ih _).2.trans hcontents⟩

theorem keeps_prepare (e : Session) (ws : List Window) (files : Files) :
    Files.Keeps e.dataFile ws files (e.prepare files).2 := by
  rw [prepare]
  split
  · exact .refl ..
  · obtain ⟨hgrows, hcontents⟩ := grows_makeFolder e.folder folderAttempts files.disk
    exact Files.keeps_of_grows e.isForFolder_dataFile hgrows hcontents fun _ _ h => h

/-- Writing outside the windows leaves their bytes, whether or not it fails. -/
theorem keeps_writeData (hhonest : files.Honest e.dataFile)
    (hapart : ∀ b, offset ≤ b → b < offset + data.length → ¬ Window.Covers ws b) :
    Files.Keeps e.dataFile ws files (e.writeData offset data files).2 := by
  have hp := e.isForFolder_dataFile
  have hlent := Files.lent_borrow hp e.parts_dataFile_ne ws files true
  rw [writeData]
  split
  · rename_i c opened hborrow
    rw [hborrow] at hlent
    exact (hlent.keeps.trans (Files.keeps_write hp (hlent.file hhonest rfl) hapart)).trans
      (Files.keeps_giveBack hp ..)
  · rename_i hborrow
    rw [hborrow] at hlent
    exact hlent.keeps
  · rename_i hborrow
    rw [hborrow] at hlent
    exact hlent.keeps

/-! ## What a write leaves -/

theorem written_of_ok (hhonest : files.Honest e.dataFile) (hdata : data ≠ [])
    (hok : (e.writeData offset data files).1 = .ok ()) :
    Files.Written e.dataFile offset data (e.writeData offset data files).2 := by
  have hlent := Files.lent_borrow e.isForFolder_dataFile e.parts_dataFile_ne [] files true
  rw [writeData] at hok ⊢
  split at hok
  · rename_i c opened hborrow
    rw [hborrow] at hlent
    obtain ⟨hexceeds, hwrite⟩ := Disk.writeAt_of_ok (d := opened.disk) (n := c.handle.file) hdata hok
    obtain ⟨q, hsame, hheld⟩ := hlent.held c rfl
    change Files.Written e.dataFile offset data (Files.giveBack
      { opened with disk := (opened.disk.writeAt c.handle.file offset data).2 } c)
    rw [hwrite]
    have hfile := (Disk.grows_contents opened.disk (opened.disk.calls + 1)
      (opened.disk.contents.set c.handle.file
        ((opened.disk.contents.get c.handle.file).write offset data))).fileAt?
      e.isForFolder_dataFile (hlent.file hhonest rfl)
    refine ⟨⟨q, _, FilePool.has_giveBack.2 hheld, hsame⟩, ⟨c.handle.file, hfile, ?_⟩, hexceeds⟩
    simp only [Files.giveBack, Heap.get_set_self, Content.size_write _ _ hdata,
      Content.slice_write_self, and_true]
    exact Nat.le_max_right ..
  · cases hok
  · cases hok

/-- Where the bytes of a page are written when it is saved. -/
def writing (e : Session) (page : PageId) (data : List UInt8) (files : Files) :
    Except IoError Unit × Files :=
  (e.prepare files).1.writeData (e.table.create page data.length).1.offset data (e.prepare files).2

/-- What comes of writing the bytes of a page that is saved, unless the page is left out. -/
def written? (e : Session) (page : PageId) (data : List UInt8) (files : Files) :
    Option (Except IoError Unit) :=
  if data = [] ∨ maxPageSize ≤ data.length ∨ e.unbound then none
  else some (e.writing page data files).1

/-- The table of a session that a page was written for, or could not be written for. -/
def tableAfter (t : WindowTable) (page : PageId) (size : Nat) : Except IoError Unit → WindowTable
  | .ok _ => (t.create page size).2
  | .error _ => (t.create page size).2.remove page

theorem save_of_none (h : e.written? page data files = none) : e.save page data files = (e, files) := by
  rw [written?] at h
  split at h
  · rename_i hleft
    rw [save, if_pos hleft]
  · cases h

theorem save_of_some {result : Except IoError Unit} (h : e.written? page data files = some result) :
    ∃ folderReady, e.save page data files =
      ({ e with folderReady, table := tableAfter e.table page data.length result },
        (e.writing page data files).2) := by
  rw [written?] at h
  split at h
  · cases h
  · rename_i hleft
    rw [Option.some.injEq] at h
    obtain ⟨folderReady, hready⟩ := prepare_eq e files
    refine ⟨folderReady, ?_⟩
    rw [← h, save, if_neg hleft, writing]
    rcases hprepare : e.prepare files with ⟨made, prepared⟩
    rw [hprepare] at hready
    subst hready
    dsimp only
    generalize writeData _ _ data prepared = written
    obtain ⟨result, done⟩ := written
    cases result with
    | error cause => rfl
    | ok _ => rfl

/-! ## What a session keeps -/

/-- Indicates a session that has not ended, whose windows lie in its data file. -/
structure Intact (e : Session) (files : Files) : Prop where
  bound : e.unbound = false
  wellKept : e.table.WellKept
  honest : files.Honest e.dataFile
  held : ∀ w ∈ e.table.windows, ∃ n, files.disk.fileAt? e.dataFile = some n ∧
    w.stop ≤ (files.disk.contents.get n).size

theorem intact_ofFolder {folder : Path} (h : files.Honest (StoreFolder.dataFileIn folder))
    (id : SessionId) (budget : Nat) : (ofFolder id folder budget).Intact files where
  bound := rfl
  wellKept := WindowTable.wellKept_empty budget
  honest := h
  held := fun w hw => by cases hw

theorem held_of_keeps (hkeeps : files.Keeps e.dataFile ws files') {w : Window}
    (h : ∃ n, files.disk.fileAt? e.dataFile = some n ∧ w.stop ≤ (files.disk.contents.get n).size) :
    ∃ n, files'.disk.fileAt? e.dataFile = some n ∧ w.stop ≤ (files'.disk.contents.get n).size := by
  obtain ⟨n, hn, hstop⟩ := h
  exact ⟨n, hkeeps.file n hn, Nat.le_trans hstop (hkeeps.size_le n hn)⟩

theorem Intact.keeps (h : e.Intact files) (hkeeps : files.Keeps e.dataFile ws files') :
    e.Intact files' :=
  { h with honest := hkeeps.honest h.honest, held := fun w hw => held_of_keeps hkeeps (h.held w hw) }

theorem Intact.remove (h : e.Intact files) (page : PageId) : (e.remove page).Intact files := by
  rw [remove_of_bound h.bound]
  exact { h with
    wellKept := h.wellKept.remove page
    held := fun w hw =>
      h.held w ((WindowTable.mem_windows_remove_iff h.wellKept.tight.pages_nodup).1 hw).1 }

theorem keeps_load (e : Session) (page : PageId) (files : Files) (ws : List Window) :
    Files.Keeps e.dataFile ws files (e.load page files).2 := by
  have hp := e.isForFolder_dataFile
  have hlent := Files.lent_borrow hp e.parts_dataFile_ne ws files false
  rw [load]
  split
  · exact .refl ..
  · split
    · rename_i hborrow
      rw [hborrow] at hlent
      exact (hlent.keeps.trans (Files.keeps_read hp ..)).trans (Files.keeps_giveBack hp ..)
    · rename_i hborrow
      rw [hborrow] at hlent
      exact hlent.keeps

/-- What is written when a page is saved leaves the windows that are left with their bytes. -/
theorem Intact.keeps_writing (h : e.Intact files) (page : PageId) (data : List UInt8) :
    Files.Keeps e.dataFile (e.table.cleared page data.length).windows files
      (e.writing page data files).2 := by
  obtain ⟨folderReady, hready⟩ := prepare_eq e files
  have hprepare := keeps_prepare e (e.table.cleared page data.length).windows files
  rw [writing, hready]
  refine hprepare.trans (keeps_writeData (e := { e with folderReady }) (hprepare.honest h.honest) ?_)
  intro b hlo hhi
  rw [WindowTable.create_eq, WindowTable.append_eq] at hlo hhi
  exact Layout.not_covers_newWindow page (h.wellKept.cleared page _).tight.toConsistent ⟨hlo, hhi⟩

theorem Intact.written (h : e.Intact files) (hok : e.written? page data files = some (.ok ())) :
    Files.Written e.dataFile (e.table.create page data.length).1.offset data
      (e.writing page data files).2 := by
  rw [written?] at hok
  split at hok
  · cases hok
  · rename_i hleft
    obtain ⟨folderReady, hready⟩ := prepare_eq e files
    have hprepare := keeps_prepare e [] files
    rw [Option.some.injEq, writing, hready] at hok
    rw [writing, hready]
    exact written_of_ok (e := { e with folderReady }) (hprepare.honest h.honest)
      (fun hnil => hleft (.inl hnil)) hok

/-- A page that is saved, or cannot be, leaves all windows in the data file. -/
theorem Intact.save (h : e.Intact files) (page : PageId) (data : List UInt8) :
    (e.save page data files).1.Intact (e.save page data files).2 := by
  cases hwritten : e.written? page data files with
  | none =>
    rw [save_of_none hwritten]
    exact h
  | some result =>
    obtain ⟨folderReady, hsave⟩ := save_of_some hwritten
    have hkeeps := h.keeps_writing page data
    have hcleared : ∀ w ∈ (e.table.cleared page data.length).windows, ∃ n,
        (e.writing page data files).2.disk.fileAt? e.dataFile = some n ∧
          w.stop ≤ ((e.writing page data files).2.disk.contents.get n).size := fun w hw =>
      held_of_keeps hkeeps
        (h.held w (WindowTable.mem_windows_of_cleared h.wellKept.tight.pages_nodup hw).1)
    have hcreated := h.wellKept.create page data.length
    rw [hsave]
    cases result with
    | error cause =>
      refine ⟨h.bound, hcreated.remove page, hkeeps.honest h.honest, fun w hw => hcleared w ?_⟩
      rwa [← WindowTable.windows_remove_create h.wellKept]
    | ok _ =>
      refine ⟨h.bound, hcreated, hkeeps.honest h.honest, fun w hw => ?_⟩
      change w ∈ (e.table.create page data.length).2.windows at hw
      rw [WindowTable.windows_create_eq] at hw
      rcases List.mem_append.1 hw with hw | hw
      · exact hcleared w hw
      · obtain ⟨n, hn, hend, -⟩ := (h.written hwritten).bytes
        rw [List.mem_singleton.1 hw]
        exact ⟨n, hn, hend⟩

/-! ## What happens to a session -/

/-- What may happen to a session and to the files: a page is saved, read or removed, or others do something
by which the data file is left alone. -/
inductive Step : Session × Files → Session × Files → Prop where
  | save (s : Session × Files) (page : PageId) (data : List UInt8) :
    Step s (s.1.save page data s.2)
  | load (s : Session × Files) (page : PageId) : Step s (s.1, (s.1.load page s.2).2)
  | remove (s : Session × Files) (page : PageId) : Step s (s.1.remove page, s.2)
  | others {s : Session × Files} {files : Files} :
    s.2.Keeps s.1.dataFile s.1.table.windows files → Step s (s.1, files)

theorem Intact.step {s s' : Session × Files} (h : s.1.Intact s.2) (hstep : Step s s') :
    s'.1.Intact s'.2 := by
  cases hstep with
  | save page data => exact h.save page data
  | load page => exact h.keeps (keeps_load s.1 page s.2 [])
  | remove page => exact h.remove page
  | others hkeeps => exact h.keeps hkeeps

theorem Intact.reached {s s' : Session × Files} (h : s.1.Intact s.2)
    (hreached : Relation.ReflTransGen Step s s') : s'.1.Intact s'.2 := by
  induction hreached with
  | refl => exact h
  | tail _ hstep ih => exact ih.step hstep

/-- Bytes that a window has in the data file, which is open, are read. -/
theorem load_of_written {w : Window} (hwindow : e.window? page = some w) (hsize : w.size = data.length)
    (hdata : data ≠ []) (hhonest : files.Honest e.dataFile)
    (h : files.Written e.dataFile w.offset data) (hcall : files.disk.faults files.disk.calls = none) :
    (e.load page files).1 = some data := by
  obtain ⟨⟨q, m, hheld, hsame⟩, ⟨n, hn, hend, hslice⟩, hexceeds⟩ := h
  obtain ⟨f, hf⟩ := FilePool.exists_find?_of_has hheld hsame
  obtain ⟨hmem, hsame⟩ := FilePool.mem_and_isSame_of_find? hf
  have hfile := hhonest f.path f.handle.file ⟨f, hmem, rfl, rfl⟩ hsame
  rw [hn, Option.some.injEq] at hfile
  subst hfile
  have hread := Disk.readAt_of_noFault (d := files.disk) f.handle.file hcall hexceeds
    (fun hzero => hdata (List.length_eq_zero_iff.1 hzero)) hend
  rw [hslice] at hread
  rw [load, hwindow]
  simp only [Files.borrow_of_find hf, Files.read, hsize, hread]
  rfl

/-- A page that is written when it is saved can be read. -/
theorem Intact.load_of_saved (h : e.Intact files)
    (hok : e.written? page data files = some (.ok ()))
    (hcall : (e.save page data files).2.disk.faults (e.save page data files).2.disk.calls = none) :
    ((e.save page data files).1.load page (e.save page data files).2).1 = some data := by
  have hsaved := h.save page data
  have hwritten := h.written hok
  obtain ⟨folderReady, hsave⟩ := save_of_some hok
  have hdata : data ≠ [] := by
    rintro rfl
    rw [written?, if_pos (.inl rfl)] at hok
    cases hok
  have hwindow : (e.save page data files).1.window? page = some (e.table.create page data.length).1 := by
    rw [window?_of_bound hsaved.bound, hsave]
    exact WindowTable.find?_create h.wellKept page data.length
  rw [hsave] at hcall hsaved hwindow ⊢
  exact load_of_written hwindow rfl hdata hsaved.honest hwritten hcall

/-- A page that cannot be written is not there. -/
theorem Intact.window?_of_failed {cause : IoError} (h : e.Intact files)
    (hfails : e.written? page data files = some (.error cause)) :
    (e.save page data files).1.window? page = none := by
  obtain ⟨folderReady, hsave⟩ := save_of_some hfails
  rw [window?_of_bound (h.save page data).bound, hsave]
  exact WindowTable.find?_remove (h.wellKept.create page data.length).tight.pages_nodup page

/-- A page that cannot be written is the only one that is lost. Whatever was done with a session that began
without pages, the page is not stored afterwards; those are that a write that succeeds would have left, in
their order and with their bytes; the table is canonical; and whatever is done later, the page can be read
as soon as it could be written. -/
theorem save_of_failure {id : SessionId} {folder : Path} {budget : Nat} {start : Files} {cause : IoError}
    (hstart : start.Honest (StoreFolder.dataFileIn folder))
    (hreached : Relation.ReflTransGen Step (ofFolder id folder budget, start) (e, files))
    (hfails : e.written? page data files = some (.error cause)) :
    let after := e.save page data files
    (∀ later, (after.1.load page later).1 = none) ∧
    (∀ other, e.written? page data other = some (.ok ()) →
      (e.save page data other).1.table.windows =
        after.1.table.windows ++ [(e.table.create page data.length).1]) ∧
    (∀ w ∈ after.1.table.windows, ∃ n, files.disk.fileAt? e.dataFile = some n ∧
      after.2.disk.fileAt? e.dataFile = some n ∧
      w.stop ≤ (files.disk.contents.get n).size ∧ w.stop ≤ (after.2.disk.contents.get n).size ∧
      (after.2.disk.contents.get n).slice w.offset w.size =
        (files.disk.contents.get n).slice w.offset w.size) ∧
    after.1.table.IsCanonical ∧
    ∀ s data', Relation.ReflTransGen Step after s → s.1.written? page data' s.2 = some (.ok ()) →
      let saved := s.1.save page data' s.2
      saved.2.disk.faults saved.2.disk.calls = none → (saved.1.load page saved.2).1 = some data' := by
  intro after
  have h : e.Intact files := (intact_ofFolder hstart id budget).reached hreached
  have hafter : after.1.Intact after.2 := h.save page data
  obtain ⟨folderReady, hsave⟩ := save_of_some hfails
  have hkeeps := h.keeps_writing page data
  have hwindows : after.1.table.windows = (e.table.cleared page data.length).windows := by
    have htable : after.1.table = (e.table.create page data.length).2.remove page :=
      congrArg (·.1.table) hsave
    rw [htable, WindowTable.windows_remove_create h.wellKept]
  refine ⟨fun later => ?_, fun other hother => ?_, fun w hw => ?_, hafter.wellKept.isCanonical,
    fun s data' hs hok hcall => (hafter.reached hs).load_of_saved hok hcall⟩
  · rw [load, h.window?_of_failed hfails]
  · obtain ⟨_, hsaved⟩ := save_of_some hother
    rw [hwindows, hsaved]
    exact WindowTable.windows_create_eq e.table page data.length
  · rw [hwindows] at hw
    obtain ⟨n, hn, hstop⟩ :=
      h.held w (WindowTable.mem_windows_of_cleared h.wellKept.tight.pages_nodup hw).1
    have hdisk : after.2 = (e.writing page data files).2 := congrArg Prod.snd hsave
    rw [hdisk]
    exact ⟨n, hn, hkeeps.file n hn, hstop, Nat.le_trans hstop (hkeeps.size_le n hn),
      hkeeps.slice_eq n hn w hw⟩

/-- Files of which the sixth call writes two bytes and fails. -/
def tornFiles : Files where
  pool := .ofCapacity 1
  disk := { Disk.ofHome ["home"] with
    faults := fun n => if n = 5 then some { error := .outside, written := 2 } else none }

/-- A session after pages 1, 2 and 3 were saved, with the files of which the next call fails. -/
def beforeTear : Session × Files :=
  let first := (ofFolder "a" ⟨"store"⟩ 8).save 1 [1, 2, 3] tornFiles
  let second := first.1.save 2 [4, 5, 6, 7] first.2
  second.1.save 3 [10] second.2

/-- A new version of page 1, for which page 2 has made way, is not written: page 3 is left. -/
theorem save_of_failure_of_torn :
    let after := beforeTear.1.save 1 [8, 8, 8, 8, 8] beforeTear.2
    let saved := after.1.save 1 [9, 9] after.2
    beforeTear.1.written? 1 [8, 8, 8, 8, 8] beforeTear.2 = some (.error .outside) ∧
    (after.1.load 1 after.2).1 = none ∧ after.1.table.windows = [⟨3, 7, 1⟩] ∧
    after.1.table.IsCanonical ∧ (saved.1.load 1 saved.2).1 = some [9, 9] := by
  intro after saved
  have hstart : tornFiles.Honest (StoreFolder.dataFileIn ⟨"store"⟩) := fun q n hq =>
    absurd hq (FilePool.not_has_ofCapacity 1)
  have hreached : Relation.ReflTransGen Step (ofFolder "a" ⟨"store"⟩ 8, tornFiles) beforeTear :=
    .tail (.tail (.single (.save _ 1 [1, 2, 3])) (.save _ 2 [4, 5, 6, 7])) (.save _ 3 [10])
  have hfails : beforeTear.1.written? 1 [8, 8, 8, 8, 8] beforeTear.2 = some (.error .outside) := rfl
  obtain ⟨hgone, -, -, hcanonical, hlater⟩ := save_of_failure hstart hreached hfails
  refine ⟨hfails, hgone _, by decide +kernel, hcanonical, ?_⟩
  have hwritten : (after.1.written? 1 [9, 9] after.2).map Except.toOption = some (some ()) := by
    decide +kernel
  obtain ⟨_ | _, hok, hdone⟩ := Option.map_eq_some_iff.1 hwritten
  · cases hdone
  · exact hlater after [9, 9] .refl hok (by decide +kernel)

end Session

end StatefulPages
