import StatefulPages.Proofs.Disk.Changes
import StatefulPages.Proofs.Storage.AgedStore
import StatefulPages.Proofs.Storage.CanonicalLayout
import StatefulPages.Proofs.Storage.PoolFiles
import StatefulPages.Storage.Session

/-!
# Sessions on a sound disk

The pages of a session are what its windows hold in its data file (`Session.pagesIn`). While a
session is `Settled` on a disk, the file that a pool may hold open for it is its data file, which has
the bytes of all its windows.

* `save_of_settled`, `load_of_settled`, `remove_of_settled`: what the work on pages does to the pages,
  which is what an aged store does to its pages;
* `unbind_of_settled`: the end of a session leaves nothing of it on the disk or in the pool.

All this changes only what the store's folder has under the name of the session's folder.
-/

namespace StatefulPages

/-- Indicates a session whose folder and data file the disk accepts by their names. -/
structure StoreFolder.Admits (f : StoreFolder) (session : SessionId) : Prop where
  name_le : (folderName session).utf8ByteSize ≤ Tree.maxNameLength
  path_ok : Disk.badPath? (dataFileIn (f.sessionFolder session)) = none

namespace StoreFolder

variable {f : StoreFolder} {session : SessionId}

instance (f : StoreFolder) (session : SessionId) : Decidable (f.Admits session) :=
  decidable_of_iff ((folderName session).utf8ByteSize ≤ Tree.maxNameLength ∧
      Disk.badPath? (dataFileIn (f.sessionFolder session)) = none)
    ⟨fun h => ⟨h.1, h.2⟩, fun h => ⟨h.name_le, h.path_ok⟩⟩

theorem isName_dataName : Path.IsName dataName := by
  decide

theorem Admits.below_sessionFolder (h : f.Admits session) :
    Path.Below f.root (f.sessionFolder session) [folderName session] :=
  Path.below_join (isName_folderName session) h.name_le (Path.badPath?_of_join isName_dataName h.path_ok)

theorem Admits.below_dataFile (h : f.Admits session) :
    Path.Below f.root (dataFileIn (f.sessionFolder session)) [folderName session, dataName] :=
  h.below_sessionFolder.join isName_dataName (by decide) h.path_ok

end StoreFolder

/-- Where the data file lies in the folder with a name. -/
def dataPlace (place : Location) (name : String) : Location :=
  place ++ [name] ++ [StoreFolder.dataName]

theorem dataPlace_eq (place : Location) (name : String) :
    dataPlace place name = place ++ name :: [StoreFolder.dataName] := by
  simp [dataPlace]

namespace WindowTable

/-- What the windows of a table hold in a file. -/
def pagesIn (t : WindowTable) (c : Content) : List StoredPage :=
  t.windows.map fun w => (w.page, c.slice w.offset w.size)

variable {t : WindowTable} {c : Content} {ws : List Window} {page : PageId} {size budget : Nat}

theorem byteCount_map (c : Content) (ws : List Window) :
    AgedStore.byteCount (ws.map fun w => (w.page, c.slice w.offset w.size)) =
      Layout.sizeSum ws := by
  induction ws with
  | nil => rfl
  | cons w ws ih => simp [AgedStore.byteCount, Layout.sizeSum, ih]

theorem dropOldest_map (c : Content) (budget size : Nat) (ws : List Window) :
    AgedStore.dropOldest budget size (ws.map fun w => (w.page, c.slice w.offset w.size)) =
      (keptFor budget size ws).map fun w => (w.page, c.slice w.offset w.size) := by
  induction ws with
  | nil => rfl
  | cons w ws ih =>
    have hcount := byteCount_map c (w :: ws)
    rw [List.map_cons] at hcount ⊢
    rw [AgedStore.dropOldest, keptFor, hcount]
    split
    · rfl
    · exact ih

theorem pagesIn_remove (h : t.WellKept) (c : Content) (page : PageId) :
    (t.remove page).pagesIn c = AgedStore.without page (t.pagesIn c) := by
  rw [pagesIn, windows_remove h.tight.pages_nodup, pagesIn, AgedStore.without, List.filter_map]
  rfl

/-- The pages that are left when there is room for a new one. -/
theorem pagesIn_cleared (h : t.WellKept) (c : Content) (page : PageId) (size : Nat) :
    (t.cleared page size).pagesIn c =
      AgedStore.dropOldest t.budget size (AgedStore.without page (t.pagesIn c)) := by
  rw [← pagesIn_remove h, pagesIn, pagesIn, dropOldest_map,
    windows_cleared h.tight.pages_nodup h.total_eq, windows_remove h.tight.pages_nodup]

/-- Writing a new page to its window leaves the other pages alone. -/
theorem pagesIn_create (h : t.WellKept) (c : Content) (page : PageId) (data : List UInt8) :
    (t.create page data.length).2.pagesIn
        (c.write (t.create page data.length).1.offset data) =
      AgedStore.withNew t.budget page data (t.pagesIn c) := by
  have hcleared := h.cleared page data.length
  rw [AgedStore.withNew, ← pagesIn_cleared h, create_eq, append_eq]
  simp only [pagesIn, Layout.withNew, List.map_append, List.map_singleton]
  congr 1
  · refine List.map_congr_left fun w hw => ?_
    rw [Content.slice_write_of_apart fun i hlo hhi hnew => ?_]
    exact Layout.not_covers_newWindow page hcleared.tight.toConsistent hnew
      ⟨w, hw, hlo, hhi⟩
  · rw [List.cons.injEq, Prod.mk.injEq]
    exact ⟨⟨rfl, Content.slice_write_self ..⟩, rfl⟩

theorem mem_windows_create {w : Window} (h : t.WellKept)
    (hw : w ∈ (t.create page size).2.windows) :
    w ∈ t.windows ∨ (w = (t.create page size).1 ∧ w.size = size) := by
  rw [windows_create_eq] at hw
  rcases List.mem_append.1 hw with hw | hw
  · exact .inl (mem_windows_of_cleared h.tight.pages_nodup hw).1
  · rw [List.mem_singleton.1 hw]
    exact .inr ⟨rfl, rfl⟩

@[simp] theorem budget_create (t : WindowTable) (page : PageId) (size : Nat) :
    (t.create page size).2.budget = t.budget := by
  rw [create_eq, append_eq]
  exact budget_cleared t page size

end WindowTable

namespace Session

variable {root : Path} {place : Location} {name : String} {e : Session} {files : Files}
  {page : PageId} {data : List UInt8} {n : Nat}

/-- The bytes of the pages of a session. -/
def pagesOn (place : Location) (name : String) (e : Session) (d : Disk) : List StoredPage :=
  e.table.pagesIn (d.contentAt (dataPlace place name))

/-- Indicates a session that has not ended, with its folder and its data file where they should be,
and its pages in that file. -/
structure Settled (root : Path) (place : Location) (name : String) (e : Session) (files : Files) :
    Prop where
  bound : e.unbound = false
  folder_below : Path.Below root e.folder [name]
  data_below : Path.Below root e.dataFile [name, StoreFolder.dataName]
  ready : e.folderReady = true → files.disk.IsFolderAt (place ++ [name])
  notReady : e.folderReady = false → files.disk.get? (place ++ [name]) = none
  data_cases : files.disk.get? (dataPlace place name) = none ∨
    ∃ n, files.disk.get? (dataPlace place name) = some (.file n)
  pooled : ∀ q n, files.pool.Has q n → q.isSame e.dataFile = true →
    files.disk.get? (dataPlace place name) = some (.file n)
  wellKept : e.table.WellKept
  window_size : ∀ w ∈ e.table.windows, 0 < w.size ∧ w.size < maxPageSize
  stop_le : ∀ w ∈ e.table.windows,
    w.stop ≤ (files.disk.contentAt (dataPlace place name)).size

theorem Settled.data_ne (h : Settled root place name e files)
    (hn : files.disk.get? (dataPlace place name) = some (.file n)) :
    files.disk.IsFolderAt (place ++ [name]) := by
  cases hready : e.folderReady with
  | true => exact h.ready hready
  | false =>
    rw [dataPlace, Disk.get?_append, h.notReady hready, Tree.get?_none] at hn
    cases hn

/-- A session with a window has a data file. -/
theorem Settled.exists_file (h : Settled root place name e files) {w : Window}
    (hw : w ∈ e.table.windows) : ∃ n, files.disk.get? (dataPlace place name) = some (.file n) := by
  rcases h.data_cases with hnone | hfile
  · have hstop := h.stop_le w hw
    have hpos := (h.window_size w hw).1
    rw [Disk.contentAt, hnone] at hstop
    simp only [Content.empty, Window.stop] at hstop
    omega
  · exact hfile

/-- What two states of the files have in common when only one session was worked on: the disk has
changed only under the name of its folder, and the pool has opened no file but its data file. -/
structure Worked (place : Location) (name : String) (p : Path) (files files' : Files) : Prop where
  changes : Disk.ChangesIn place name files.disk files'.disk
  pool : ∀ q n, files'.pool.Has q n → files.pool.Has q n ∨ q = p

theorem Worked.refl (place : Location) (name : String) (p : Path) (files : Files) :
    Worked place name p files files :=
  ⟨.refl place name files.disk, fun _ _ h => .inl h⟩

theorem Worked.trans {p : Path} {files' files'' : Files} (h : Worked place name p files files')
    (h' : Worked place name p files' files'') : Worked place name p files files'' :=
  ⟨h.changes.trans h'.changes, fun q n hq => (h'.pool q n hq).elim (h.pool q n) .inr⟩

theorem window?_of_bound (h : e.unbound = false) (page : PageId) :
    e.window? page = e.table.find? page := by
  rw [window?, h]
  rfl

theorem remove_of_bound (h : e.unbound = false) (page : PageId) :
    e.remove page = { e with table := e.table.remove page } := by
  rw [remove, h]
  rfl

theorem prepare_eq (e : Session) (files : Files) :
    ∃ folderReady, (e.prepare files).1 = { e with folderReady } := by
  rw [prepare]
  split
  · exact ⟨e.folderReady, rfl⟩
  · exact ⟨_, rfl⟩

/-! ## Borrowing the data file -/

/-- What borrowing the data file does to the files. -/
structure Borrowed (root : Path) (place : Location) (name : String) (e : Session)
    (files files' : Files) (c : Channel) : Prop where
  worked : Worked place name e.dataFile files files'
  rooted : files'.disk.Rooted root place
  file_eq : files'.disk.get? (dataPlace place name) = some (.file c.handle.file)
  content_eq : files'.disk.contents.get c.handle.file =
    files.disk.contentAt (dataPlace place name)
  folder : files'.disk.IsFolderAt (place ++ [name])
  pooled : ∀ q n, files'.pool.Has q n → q.isSame e.dataFile = true → n = c.handle.file

theorem borrowed_of_file (h : Settled root place name e files) (hr : files.disk.Rooted root place)
    (hn : files.disk.get? (dataPlace place name) = some (.file n)) (writing : Bool) :
    ∃ c files', files.borrow e.dataFile writing = (.ok (some c), files') ∧
      Borrowed root place name e files files' c := by
  have hfolder := h.data_ne hn
  have hopen := Disk.openFile_of_file [name] hr h.data_below hfolder hn writing
  obtain ⟨c, files', hborrow, hcases⟩ := Files.borrow_cases hopen
  refine ⟨c, files', hborrow, ?_⟩
  rcases hcases with ⟨hdisk, ⟨q, hsame, hheld⟩, hkept⟩ | ⟨hdisk, hc, hkept⟩
  · have hfile := h.pooled q _ hheld hsame
    refine ⟨⟨hdisk ▸ .refl .., fun q m hq => .inl ((hkept q m).1 hq)⟩, hdisk ▸ hr, hdisk ▸ hfile,
      ?_, hdisk ▸ hfolder, fun q m hq hsame' => ?_⟩
    · rw [hdisk, Disk.contentAt_of_file hfile]
    · have hfile' := h.pooled q m ((hkept q m).1 hq) hsame'
      rw [hfile] at hfile'
      cases hfile'
      rfl
  · refine ⟨⟨hdisk ▸ .tick .., fun q m hq => (hkept q m hq).imp_right And.left⟩, hdisk ▸ hr.tick,
      ?_, ?_, ?_, fun q m hq hsame => ?_⟩
    · rw [hdisk, Disk.get?_tick, hn, hc]
    · rw [hdisk, Disk.contentAt_of_file hn, hc]
      rfl
    · rw [hdisk]
      exact hfolder
    · rcases hkept q m hq with hq | hq
      · have hfile := h.pooled q m hq hsame
        rw [hn] at hfile
        cases hfile
        exact hc.symm
      · exact hq.2.trans hc.symm

/-- A data file that is missing is made for writing. -/
theorem borrowed_of_none (h : Settled root place name e files) (hr : files.disk.Rooted root place)
    (hready : e.folderReady = true) (hnone : files.disk.get? (dataPlace place name) = none) :
    ∃ c files', files.borrow e.dataFile true = (.ok (some c), files') ∧
      Borrowed root place name e files files' c := by
  have hfolder := h.ready hready
  have hopen := Disk.openFile_of_none [name] hr h.data_below hfolder hnone
  obtain ⟨c, files', hborrow, hcases⟩ := Files.borrow_cases hopen
  refine ⟨c, files', hborrow, ?_⟩
  have hplace : place ++ [name] ++ [StoreFolder.dataName] =
    place ++ name :: [StoreFolder.dataName] := dataPlace_eq place name
  have hchanges := (Disk.ChangesIn.tick place name files.disk).trans
    (Disk.ChangesIn.addFile (d := files.disk.tick) hfolder hplace)
  rcases hcases with ⟨-, ⟨q, hsame, hheld⟩, -⟩ | ⟨hdisk, hc, hkept⟩
  · have hfile := h.pooled q _ hheld hsame
    rw [hnone] at hfile
    cases hfile
  · refine ⟨⟨hdisk ▸ hchanges, fun q m hq => (hkept q m hq).imp_right And.left⟩,
      hdisk ▸ hchanges.rooted root hr, ?_, ?_, ?_, fun q m hq hsame => ?_⟩
    · rw [hdisk, hc]
      exact Disk.get?_put_self (d := files.disk.tick) hfolder ..
    · rw [hdisk, hc, Disk.contentAt, hnone]
      exact Heap.get_add ..
    · rw [hdisk]
      exact Disk.isFolderAt_put (d := files.disk.tick) hfolder StoreFolder.dataName [] _
    · rcases hkept q m hq with hq | hq
      · have hfile := h.pooled q m hq hsame
        rw [hnone] at hfile
        cases hfile
      · exact hq.2.trans hc.symm

/-! ## Saving -/

/-- The folder is there when a page is written. -/
theorem prepare_of_settled (h : Settled root place name e files)
    (hr : files.disk.Rooted root place) :
    ∃ files', e.prepare files = ({ e with folderReady := true }, files') ∧
      Settled root place name { e with folderReady := true } files' ∧
      Worked place name e.dataFile files files' ∧
      files'.disk.contentAt (dataPlace place name) =
        files.disk.contentAt (dataPlace place name) := by
  rw [prepare]
  cases hready : e.folderReady with
  | true =>
    have heq : e = { e with folderReady := true } := by
      cases e
      cases hready
      rfl
    rw [← heq]
    exact ⟨files, rfl, h, .refl .., rfl⟩
  | false =>
    have hnone := h.notReady hready
    have hmake : makeFolder e.folder folderAttempts files.disk =
        (true, files.disk.tick.put (place ++ [name]) (some .empty)) := by
      show makeFolder e.folder (49 + 1) files.disk = _
      rw [makeFolder, Disk.createFolders_of_none hr h.folder_below hnone]
    have hfolder : files.disk.tick.IsFolderAt place := hr.isFolderAt
    have hchanges := (Disk.ChangesIn.tick place name files.disk).trans (.put_empty hfolder name)
    have hthere := Disk.get?_put_self hfolder name (some .empty)
    have hbefore : files.disk.get? (dataPlace place name) = none := by
      rw [dataPlace, Disk.get?_append, hnone, Tree.get?_none]
    have hafter : (files.disk.tick.put (place ++ [name]) (some .empty)).get?
        (dataPlace place name) = none := by
      rw [dataPlace, Disk.get?_append, hthere]
      rfl
    have hcontent : (files.disk.tick.put (place ++ [name]) (some .empty)).contentAt
        (dataPlace place name) = files.disk.contentAt (dataPlace place name) := by
      rw [Disk.contentAt, Disk.contentAt, hafter, hbefore]
    simp only [Bool.false_eq_true, if_false, hmake]
    refine ⟨_, rfl, ?_, ⟨hchanges, fun q m hq => .inl hq⟩, hcontent⟩
    refine { h with
      ready := fun _ => ?_
      notReady := fun hfalse => Bool.noConfusion hfalse
      data_cases := .inl hafter
      pooled := fun q m hq hsame => ?_
      stop_le := fun w hw => hcontent.symm ▸ h.stop_le w hw }
    · rw [Disk.IsFolderAt, hthere]
      trivial
    · have hfile := h.pooled q m hq hsame
      rw [hbefore] at hfile
      cases hfile

/-- Bytes that are written to the data file are in it. -/
theorem writeData_of_settled (h : Settled root place name e files)
    (hr : files.disk.Rooted root place) (hready : e.folderReady = true) (hdata : data ≠ [])
    (offset : Nat) :
    ∃ n files', e.writeData offset data files = (.ok (), files') ∧
      files'.disk.IsFolderAt (place ++ [name]) ∧
      files'.disk.get? (dataPlace place name) = some (.file n) ∧
      (∀ q m, files'.pool.Has q m → q.isSame e.dataFile = true → m = n) ∧
      files'.disk.contentAt (dataPlace place name) =
        (files.disk.contentAt (dataPlace place name)).write offset data ∧
      Worked place name e.dataFile files files' := by
  obtain ⟨c, opened, hborrow, hb⟩ : ∃ c files', files.borrow e.dataFile true = (.ok (some c), files') ∧
      Borrowed root place name e files files' c := by
    rcases h.data_cases with hnone | ⟨n, hn⟩
    · exact borrowed_of_none h hr hready hnone
    · exact borrowed_of_file h hr hn true
  have hfile := hb.file_eq
  rw [dataPlace_eq] at hfile
  have hwrite := Disk.writeAt_of_sound hb.rooted.sound c.handle.file offset hdata
  rw [writeData, hborrow]
  simp only [Files.write, hwrite, Files.giveBack]
  refine ⟨c.handle.file, _, rfl, hb.folder, hb.file_eq, fun q m hq => ?_, ?_, ?_, fun q m hq => ?_⟩
  · exact hb.pooled q m (FilePool.has_giveBack.1 hq)
  · rw [← hb.content_eq]
    exact Disk.contentAt_setContent (d := opened.disk.tick) hb.file_eq _
  · exact (hb.worked.changes.trans (.tick ..)).trans (.setContent (d := opened.disk.tick) hfile _)
  · exact hb.worked.pool q m (FilePool.has_giveBack.1 hq)

/-- A page that is neither empty nor too large is not left out. -/
theorem Settled.saves (h : Settled root place name e files) (hdata : data ≠ [])
    (hsize : data.length < maxPageSize) :
    ¬ (data = [] ∨ maxPageSize ≤ data.length ∨ e.unbound) := by
  rw [h.bound]
  simp only [Bool.false_eq_true, or_false, not_or]
  exact ⟨hdata, Nat.not_le.2 hsize⟩

/-- A page that is saved is the newest one, and the oldest ones give way. -/
theorem save_of_settled (h : Settled root place name e files) (hr : files.disk.Rooted root place)
    (hdata : data ≠ []) (hsize : data.length < maxPageSize) (page : PageId) :
    ∃ e' files', e.save page data files = (e', files') ∧
      Settled root place name e' files' ∧ Worked place name e.dataFile files files' ∧
      e'.id = e.id ∧ e'.folder = e.folder ∧ e'.table.budget = e.table.budget ∧
      pagesOn place name e' files'.disk =
        AgedStore.withNew e.table.budget page data (pagesOn place name e files.disk) := by
  obtain ⟨made, hprepare, hs, hworked, hcontent⟩ := prepare_of_settled h hr
  obtain ⟨n, written, hwrite, hfolder, hfile, hpool, hbytes, hworked'⟩ :=
    writeData_of_settled hs (hworked.changes.rooted root hr) rfl hdata
      (e.table.create page data.length).1.offset
  rw [save, if_neg (h.saves hdata hsize), hprepare]
  simp only [hwrite]
  refine ⟨_, _, rfl, ?_, hworked.trans hworked', rfl, rfl, WindowTable.budget_create .., ?_⟩
  · refine {
      bound := h.bound
      folder_below := h.folder_below
      data_below := h.data_below
      ready := fun _ => hfolder
      notReady := fun hfalse => Bool.noConfusion hfalse
      data_cases := .inr ⟨n, hfile⟩
      pooled := fun q m hq hsame => hpool q m hq hsame ▸ hfile
      wellKept := h.wellKept.create page data.length
      window_size := fun w hw => ?_
      stop_le := fun w hw => ?_ }
    · rcases WindowTable.mem_windows_create h.wellKept hw with hw | ⟨-, hw⟩
      · exact h.window_size w hw
      · exact ⟨hw ▸ List.length_pos_iff.2 hdata, hw ▸ hsize⟩
    · rw [hbytes, Content.size_write _ _ hdata]
      rcases WindowTable.mem_windows_create h.wellKept hw with hw | ⟨hw, hwsize⟩
      · exact Nat.le_trans (hs.stop_le w hw) (Nat.le_max_left ..)
      · rw [Window.stop, hwsize, hw]
        exact Nat.le_max_right ..
  · rw [pagesOn, hbytes, hcontent]
    exact WindowTable.pagesIn_create h.wellKept _ page data

/-! ## Reading and removing -/

theorem find?_pagesIn (t : WindowTable) (c : Content) (page : PageId) :
    ((t.pagesIn c).find? (·.1 = page)).map (·.2) =
      (t.find? page).map fun w => c.slice w.offset w.size := by
  rw [WindowTable.pagesIn, WindowTable.find?, List.find?_map, Option.map_map]
  rfl

/-- A page is read as its window has it. -/
theorem load_of_settled (h : Settled root place name e files) (hr : files.disk.Rooted root place)
    (page : PageId) :
    ∃ files', e.load page files =
        (((pagesOn place name e files.disk).find? (·.1 = page)).map (·.2), files') ∧
      Settled root place name e files' ∧ Worked place name e.dataFile files files' ∧
      pagesOn place name e files'.disk = pagesOn place name e files.disk := by
  rw [load, window?_of_bound h.bound, pagesOn, find?_pagesIn]
  cases hw : e.table.find? page with
  | none => exact ⟨files, rfl, h, .refl .., rfl⟩
  | some w =>
    have hmem : w ∈ e.table.windows := List.mem_of_find?_eq_some hw
    obtain ⟨n, hn⟩ := h.exists_file hmem
    obtain ⟨c, opened, hborrow, hb⟩ := borrowed_of_file h hr hn false
    have hpos := (h.window_size w hmem).1
    have hread := Disk.readAt_of_sound c.handle.file w.offset hb.rooted.sound
      (Nat.ne_of_gt hpos) (by rw [hb.content_eq]; exact h.stop_le w hmem)
    have hsame : opened.disk.tick.contentAt (dataPlace place name) =
        files.disk.contentAt (dataPlace place name) :=
      (Disk.contentAt_of_file hb.file_eq).trans hb.content_eq
    simp only [hborrow, Files.read, hread, Files.giveBack]
    refine ⟨⟨opened.pool.giveBack c, opened.disk.tick⟩, ?_, ?_, ?_, ?_⟩
    · rw [hb.content_eq]
      rfl
    · refine { h with
        ready := fun _ => hb.folder
        notReady := fun hfalse => ?_
        data_cases := .inr ⟨_, hb.file_eq⟩
        pooled := fun q m hq hs => ?_
        stop_le := fun v hv => hsame.symm ▸ h.stop_le v hv }
      · have hfolder := h.data_ne hn
        rw [Disk.IsFolderAt, h.notReady hfalse] at hfolder
        exact hfolder.elim
      · rw [hb.pooled q m (FilePool.has_giveBack.1 hq) hs]
        exact hb.file_eq
    · exact ⟨hb.worked.changes.trans (.tick ..),
        fun q m hq => hb.worked.pool q m (FilePool.has_giveBack.1 hq)⟩
    · show e.table.pagesIn (opened.disk.tick.contentAt (dataPlace place name)) = _
      rw [hsame]

/-- A page that is removed is not there any more. -/
theorem remove_of_settled (h : Settled root place name e files) (page : PageId) :
    Settled root place name (e.remove page) files ∧ (e.remove page).id = e.id ∧
      (e.remove page).folder = e.folder ∧ (e.remove page).table.budget = e.table.budget ∧
      pagesOn place name (e.remove page) files.disk =
        AgedStore.without page (pagesOn place name e files.disk) := by
  have hsub : ∀ w ∈ (e.table.remove page).windows, w ∈ e.table.windows := fun w hw =>
    (WindowTable.mem_windows_remove_iff h.wellKept.tight.pages_nodup).1 hw |>.1
  rw [remove_of_bound h.bound]
  refine ⟨{ h with
    wellKept := h.wellKept.remove page
    window_size := fun w hw => h.window_size w (hsub w hw)
    stop_le := fun w hw => h.stop_le w (hsub w hw) }, rfl, rfl, WindowTable.budget_remove .., ?_⟩
  exact WindowTable.pagesIn_remove h.wellKept _ page

/-! ## The end of a session -/

/-- When a session ends, its folder and its data file are gone. -/
theorem unbind_of_settled (h : Settled root place name e files)
    (hr : files.disk.Rooted root place) :
    ∃ files', e.unbind files = ({ e with unbound := true }, files') ∧
      Worked place name e.dataFile files files' ∧
      files'.disk.get? (place ++ [name]) = none ∧
      ∀ q n, files'.pool.Has q n → q.isSame e.dataFile = false := by
  rw [unbind, h.bound]
  simp only [Bool.false_eq_true, if_false, Files.delete]
  refine ⟨_, rfl, ?_⟩
  have hpool : ∀ q n, (files.pool.close e.dataFile).Has q n →
      files.pool.Has q n ∧ q.isSame e.dataFile = false := fun q n => FilePool.has_close.1
  suffices hdisk : Disk.ChangesIn place name files.disk
        ((files.disk.deleteFile e.dataFile).2.deleteFolder e.folder).2 ∧
      ((files.disk.deleteFile e.dataFile).2.deleteFolder e.folder).2.get? (place ++ [name]) = none from
    ⟨⟨hdisk.1, fun q n hq => .inl (hpool q n hq).1⟩, hdisk.2, fun q n hq => (hpool q n hq).2⟩
  have hplace : (place ++ []) = place := List.append_nil place
  cases hready : e.folderReady with
  | false =>
    have hnone := h.notReady hready
    have hlocate := Disk.locate_of_none [] hr h.data_below
      (hplace.symm ▸ hr.isFolderAt) (by rwa [hplace])
    have hfile := Disk.deleteFile_of_error hr.sound (Disk.lookup_of_locate_error hlocate)
    have hlookup := Disk.lookup_of_below [] hr.tick h.folder_below
      (hplace.symm ▸ hr.isFolderAt)
    rw [hplace, Disk.get?_tick, hnone] at hlookup
    rw [hfile, Disk.deleteFolder_of_error hr.tick.sound hlookup]
    exact ⟨(Disk.ChangesIn.tick ..).trans (.tick ..), hnone⟩
  | true =>
    have hfolder := h.ready hready
    -- Whether or not there is a data file to delete, the folder is there to be deleted next.
    obtain ⟨d, hfile, hchanges, hfolder'⟩ : ∃ d, (files.disk.deleteFile e.dataFile).2 = d ∧
        Disk.ChangesIn place name files.disk d ∧ d.IsFolderAt (place ++ [name]) := by
      rcases h.data_cases with hnone | ⟨n, hn⟩
      · have hlookup := Disk.lookup_of_below [name] hr h.data_below hfolder
        rw [dataPlace] at hnone
        rw [hnone] at hlookup
        exact ⟨_, by rw [Disk.deleteFile_of_error hr.sound hlookup], .tick .., hfolder⟩
      · refine ⟨_, by rw [Disk.deleteFile_of_file [name] hr h.data_below hfolder hn], ?_,
          Disk.isFolderAt_put (d := files.disk.tick) hfolder StoreFolder.dataName [] none⟩
        refine (Disk.ChangesIn.tick ..).trans ?_
        exact .put (d := files.disk.tick) hfolder _ (dataPlace_eq place name) (Nat.le_refl _)
          (fun _ _ => rfl) fun rest m hm => by rw [Tree.get?_none] at hm; cases hm
    have hrooted := hchanges.rooted root hr
    rw [hfile, Disk.deleteFolder_of_isFolder hrooted h.folder_below hfolder']
    exact ⟨(hchanges.trans (.tick ..)).trans (.put_none (d := d.tick) hrooted.isFolderAt name),
      Disk.get?_put_self (d := d.tick) hrooted.isFolderAt name none⟩

end Session

end StatefulPages
