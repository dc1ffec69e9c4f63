import StatefulPages.Proofs.Storage.EndedSessions
import StatefulPages.Proofs.Storage.FailedWrites
import StatefulPages.Proofs.Storage.IdleFiles

/-!
# The files that a store has open

A session borrows its data file, works on it and gives it back before anyone else borrows a file, also
where the work fails. So whenever a file is to be opened, all files in the pool are idle, and enough of them
are closed. When a session is removed its data file is closed.

* `FilePool.length_closeIdle_lt`: among idle files there is always room for one more;
* `Files.InUse`: a pool with the channels that are lent, kept by every use of the pool;
* `Session.inUse_save`, `Session.inUse_load`, `Session.inUse_unbind`: no channel is left after work on a
  session;
* `DiskStore.Tidy.apply`, `DiskStore.Tidy.after`: all files that are open are those of sessions.
-/

namespace StatefulPages

/-- Where all files are idle, as many are closed as have to make way for one more. -/
theorem FilePool.length_closeIdle_lt {capacity k : Nat} {files : List PooledFile}
    (hcapacity : 0 < capacity) (hk : files.length ≤ k) (hidle : ∀ f ∈ files, f.borrows = 0) :
    (closeIdle capacity k files).length < capacity := by
  induction k generalizing files with
  | zero =>
    rw [List.eq_nil_of_length_eq_zero (Nat.le_zero.1 hk)]
    exact hcapacity
  | succ k ih =>
    rw [closeIdle]
    split
    · assumption
    · rename_i hfull
      have hall : files.filter (·.borrows = 0) = files :=
        List.filter_eq_self.2 fun f hf => decide_eq_true (hidle f hf)
      rw [hall]
      split
      · rename_i f hf
        have hlength := List.length_erase_of_mem (leastRecent?_eq_some hf).1
        exact ih (by omega) fun g hg => hidle g (List.mem_of_mem_erase hg)
      · rename_i hnone
        rw [leastRecent?_eq_none_iff.1 hnone] at hfull
        exact absurd hcapacity hfull

/-! ## Uses of a pool -/

namespace Files

/-- Indicates a pool of which some channels are lent, and that holds no more files than it may, all of them
at allowed paths. -/
structure InUse (capacity : Nat) (allowed : Path → Prop) (lent : List Channel) (files : Files) :
    Prop where
  accounted : ∃ uses, PoolUse.Accounted { files, lent, uses }
  capacity_pos : 0 < capacity
  capacity_eq : files.pool.capacity = capacity
  length_le : files.pool.files.length ≤ capacity
  allowed : ∀ f ∈ files.pool.files, allowed f.path

/-- The channel that a borrowing lends, if it does. -/
def channels : Except IoError (Option Channel) → List Channel
  | .ok c => c.toList
  | .error _ => []

theorem channels_eq_nil {result : Except IoError (Option Channel)} (h : ∀ c, result ≠ .ok (some c)) :
    channels result = [] := by
  match result, h with
  | .ok none, _ => rfl
  | .ok (some c), h => exact absurd rfl (h c)
  | .error _, _ => rfl

variable {capacity : Nat} {allowed others : Path → Prop} {lent : List Channel} {files : Files}

theorem inUse_ofCapacity (capacity : Nat) (allowed : Path → Prop) (disk : Disk) :
    InUse (max capacity 1) allowed [] { pool := .ofCapacity capacity, disk } where
  accounted := ⟨[], PoolUse.accounted_ofCapacity capacity disk⟩
  capacity_pos := Nat.le_max_right ..
  capacity_eq := rfl
  length_le := Nat.zero_le _
  allowed := nofun

/-- While nothing is lent all files are idle. -/
theorem InUse.borrows_eq_zero (h : InUse capacity allowed [] files) :
    ∀ f ∈ files.pool.files, f.borrows = 0 := by
  obtain ⟨uses, hu⟩ := h.accounted
  exact hu.borrows_eq

theorem InUse.mono (h : InUse capacity allowed lent files)
    (hothers : ∀ f ∈ files.pool.files, allowed f.path → others f.path) :
    InUse capacity others lent files :=
  { h with allowed := fun f hf => hothers f hf (h.allowed f hf) }

/-- What the disk becomes makes no difference to the pool. -/
theorem InUse.change (h : InUse capacity allowed lent files) (disk : Disk) :
    InUse capacity allowed lent { files with disk } := by
  obtain ⟨uses, hu⟩ := h.accounted
  exact { h with accounted := ⟨uses, hu.moves (hu.moves_call (.change disk))⟩ }

/-- A file that is borrowed while nothing is lent finds room in the pool. -/
theorem InUse.borrow {p : Path} (h : InUse capacity allowed [] files) (hp : allowed p)
    (writing : Bool) :
    InUse capacity allowed (channels (files.borrow p writing).1) (files.borrow p writing).2 := by
  obtain ⟨uses, hu⟩ := h.accounted
  have hafter := hu.moves (hu.moves_call (.borrow p writing))
  -- The file is open already, or it is opened now, or it cannot be opened.
  rcases hu.borrow_cases p writing with
    ⟨f, hf, -, hborrow⟩ | ⟨-, ⟨n, disk, hborrow⟩ | ⟨result, disk, hresult, hborrow⟩⟩
  · rw [PoolUse.call, hborrow] at hafter
    dsimp only at hborrow
    rw [hborrow]
    refine ⟨⟨_, hafter⟩, h.capacity_pos, h.capacity_eq, ?_, fun g hg => ?_⟩
    · exact Nat.le_trans (Nat.le_of_eq (List.length_map _)) h.length_le
    · obtain ⟨k, hk, rfl⟩ := List.mem_map.1 hg
      rw [PoolUse.path_touch]
      exact h.allowed k hk
  · rw [PoolUse.call, hborrow] at hafter
    dsimp only at hborrow
    rw [hborrow]
    refine ⟨⟨_, hafter⟩, h.capacity_pos, h.capacity_eq, ?_, fun g hg => ?_⟩
    · have hroom := FilePool.length_closeIdle_lt (k := files.pool.files.length) h.capacity_pos
        (Nat.le_refl _) h.borrows_eq_zero
      rw [← h.capacity_eq] at hroom ⊢
      exact hroom
    · rcases List.mem_cons.1 hg with rfl | hg
      · exact hp
      · exact h.allowed g ((FilePool.closeIdle_sublist ..).mem hg)
  · rw [PoolUse.call_borrow_of_fails hresult hborrow] at hafter
    dsimp only at hborrow
    rw [hborrow, channels_eq_nil hresult]
    exact ⟨⟨_, hafter⟩, h.capacity_pos, h.capacity_eq, h.length_le, h.allowed⟩

/-- When the only channel is given back nothing is lent. -/
theorem InUse.giveBack {c : Channel} (h : InUse capacity allowed [c] files) :
    InUse capacity allowed [] (files.giveBack c) := by
  obtain ⟨uses, hu⟩ := h.accounted
  have hc : c ∈ [c] := List.mem_singleton_self c
  have hafter := hu.moves (hu.moves_call (.giveBack c))
  rw [PoolUse.call, if_pos hc] at hafter
  have hfiles : (files.giveBack c).pool.files = _ := hu.files_giveBack hc
  refine ⟨⟨_, by simpa using hafter⟩, h.capacity_pos, h.capacity_eq, ?_, fun g hg => ?_⟩
  · rw [hfiles, List.length_map]
    exact h.length_le
  · rw [hfiles] at hg
    obtain ⟨k, hk, rfl⟩ := List.mem_map.1 hg
    rw [PoolUse.path_touch]
    exact h.allowed k hk

/-- What is deleted is not open any more. -/
theorem InUse.delete (h : InUse capacity allowed lent files) (p : Path) :
    InUse capacity (fun q => allowed q ∧ q.isSame p = false) lent (files.delete p) := by
  obtain ⟨uses, hu⟩ := h.accounted
  refine ⟨⟨uses, hu.moves (hu.moves_call (.delete p))⟩, h.capacity_pos, h.capacity_eq, ?_, ?_⟩
  · exact Nat.le_trans (List.length_filter_le ..) h.length_le
  · intro f hf
    obtain ⟨hmem, hne⟩ := List.mem_filter.1 hf
    exact ⟨h.allowed f hmem, by simpa using hne⟩

theorem InUse.closeAll (h : InUse capacity allowed lent files) :
    InUse capacity allowed lent files.closeAll := by
  obtain ⟨uses, hu⟩ := h.accounted
  exact ⟨⟨uses, hu.moves (hu.moves_call .closeAll)⟩, h.capacity_pos, h.capacity_eq, Nat.zero_le _,
    nofun⟩

end Files

/-! ## Work on a session -/

namespace Session

variable {capacity : Nat} {allowed : Path → Prop} {e : Session} {files : Files}

theorem inUse_prepare (h : files.InUse capacity allowed []) :
    (e.prepare files).2.InUse capacity allowed [] := by
  rw [prepare]
  split
  · exact h
  · exact h.change _

/-- What is saved changes the table of a session at most, and whether its folder is known to be there. -/
theorem save_eq (e : Session) (page : PageId) (data : List UInt8) (files : Files) :
    ∃ folderReady table, e.save page data files =
      ({ e with folderReady, table }, (e.save page data files).2) := by
  cases hwritten : e.written? page data files with
  | none =>
    rw [save_of_none hwritten]
    exact ⟨e.folderReady, e.table, rfl⟩
  | some result =>
    obtain ⟨folderReady, hsave⟩ := save_of_some hwritten
    rw [hsave]
    exact ⟨folderReady, _, rfl⟩

/-- The channel that is written to is given back, whether or not the write succeeds. -/
theorem inUse_writeData (h : files.InUse capacity allowed []) (hp : allowed e.dataFile) (offset : Nat)
    (data : List UInt8) : (e.writeData offset data files).2.InUse capacity allowed [] := by
  have hborrowed := h.borrow hp true
  rw [writeData]
  split
  all_goals
    rename_i heq
    rw [heq] at hborrowed
  · exact (hborrowed.change _).giveBack
  · exact hborrowed
  · exact hborrowed

theorem inUse_save (h : files.InUse capacity allowed []) (hp : allowed e.dataFile) (page : PageId)
    (data : List UInt8) : (e.save page data files).2.InUse capacity allowed [] := by
  cases hwritten : e.written? page data files with
  | none =>
    rw [save_of_none hwritten]
    exact h
  | some result =>
    obtain ⟨folderReady, hsave⟩ := save_of_some hwritten
    obtain ⟨ready, hready⟩ := prepare_eq e files
    rw [hsave, writing, hready]
    exact inUse_writeData (e := { e with folderReady := ready }) (inUse_prepare h) hp _ data

theorem inUse_load (h : files.InUse capacity allowed []) (hp : allowed e.dataFile) (page : PageId) :
    (e.load page files).2.InUse capacity allowed [] := by
  have hborrowed := h.borrow hp false
  rw [load]
  split
  · exact h
  · split
    · rename_i heq
      rw [heq] at hborrowed
      exact (hborrowed.change _).giveBack
    · rename_i hnone heq
      rw [heq, Files.channels_eq_nil hnone] at hborrowed
      exact hborrowed

theorem inUse_unbind (h : files.InUse capacity allowed []) (he : e.unbound = false) :
    (e.unbind files).2.InUse capacity (fun q => allowed q ∧ q.isSame e.dataFile = false) [] := by
  rw [unbind, he]
  exact (h.delete e.dataFile).change _

end Session

/-! ## Stores -/

namespace DiskStore

variable {capacity : Nat} {s : DiskStore} {id : SessionId} {ref : SessionRef}

/-- Indicates the path of the data file of a session. -/
def OwnsFile (s : DiskStore) (p : Path) : Prop :=
  ∃ id e, s.object? id = some e ∧ p = e.dataFile

/-- Indicates a store whose sessions have not ended, and whose pool holds files of them only, all idle. -/
structure Tidy (capacity : Nat) (s : DiskStore) : Prop where
  distinct : s.Distinct
  bound : ∀ id e, s.object? id = some e → e.unbound = false
  inUse : s.files.InUse capacity s.OwnsFile []

theorem ownsFile_of_session (h : s.session? id = some ref) : s.OwnsFile (s.objects.get ref).dataFile :=
  ⟨id, _, object?_of_some h, rfl⟩

/-- What the sessions are does not depend on the files. -/
theorem Tidy.files (h : s.Tidy capacity) {files : Files} (hinUse : files.InUse capacity s.OwnsFile []) :
    Tidy capacity { s with files } :=
  ⟨⟨h.distinct.names_nodup, h.distinct.ref_lt, h.distinct.id_eq⟩, h.bound, hinUse⟩

theorem Tidy.change (h : s.Tidy capacity) (disk : Disk) :
    Tidy capacity { s with files := { s.files with disk } } :=
  h.files (h.inUse.change disk)

/-- The object of a session may be replaced by another one with the same data file. -/
theorem Tidy.set (h : s.Tidy capacity) (hid : s.session? id = some ref) {e : Session} {files : Files}
    (hdata : e.dataFile = (s.objects.get ref).dataFile) (hbound : e.unbound = false)
    (hinUse : files.InUse capacity s.OwnsFile []) :
    Tidy capacity { s with objects := s.objects.set ref e, files } := by
  refine ⟨h.distinct.set ref e files, fun other x hother => ?_, hinUse.mono fun f _ hf => ?_⟩
  · rw [object?_set h.distinct hid] at hother
    split at hother
    · cases hother
      exact hbound
    · exact h.bound other x hother
  · obtain ⟨other, x, hother, hpath⟩ := hf
    by_cases heq : other = id
    · refine ⟨id, e, by rw [object?_set h.distinct hid, if_pos rfl], ?_⟩
      rw [heq, object?_of_some hid] at hother
      cases hother
      rw [hpath, hdata]
    · exact ⟨other, x, by rw [object?_set h.distinct hid, if_neg heq, hother], hpath⟩

/-- A session that has no object gets one; while no file is open one may be replaced, too. -/
theorem Tidy.addSession {e : Session} (h : s.Tidy capacity)
    (hnew : ∀ x, s.object? e.id = some x → s.files.pool.files = []) (hbound : e.unbound = false) :
    (s.addSession e).Tidy capacity := by
  refine ⟨h.distinct.addSession e, fun other x hother => ?_, h.inUse.mono fun f hmem hf => ?_⟩
  · rw [object?_addSession h.distinct] at hother
    split at hother
    · cases hother
      exact hbound
    · exact h.bound other x hother
  · obtain ⟨other, x, hother, hpath⟩ := hf
    have hne : other ≠ e.id := by
      rintro rfl
      rw [hnew x hother] at hmem
      cases hmem
    exact ⟨other, x, by rw [object?_addSession h.distinct, if_neg hne, hother], hpath⟩

theorem Tidy.saveIn (h : s.Tidy capacity) (hid : s.session? id = some ref) (page : PageId)
    (data : List UInt8) : (s.saveIn ref page data).Tidy capacity := by
  obtain ⟨folderReady, table, hsave⟩ := (s.objects.get ref).save_eq page data s.files
  have hbound := h.bound id _ (object?_of_some hid)
  have hinUse := Session.inUse_save h.inUse (ownsFile_of_session hid) page data
  rw [DiskStore.saveIn, hsave]
  exact h.set hid rfl hbound hinUse

theorem Tidy.load (h : s.Tidy capacity) (id : SessionId) (page : PageId) :
    (s.load id page).2.Tidy capacity := by
  rw [DiskStore.load]
  split
  · rename_i ref hid
    exact h.files (Session.inUse_load h.inUse (ownsFile_of_session hid) page)
  · exact h

theorem Tidy.store (h : s.Tidy capacity) (id : SessionId) (page : PageId) (data : List UInt8) :
    (s.store id page data).Tidy capacity := by
  rw [DiskStore.store]
  split
  · exact h
  · cases hid : s.session? id with
    | some ref =>
      rw [obtain, hid]
      exact h.saveIn hid page data
    | none =>
      have hnew : ∀ x, s.object? id = some x → s.files.pool.files = [] := by
        intro x hx
        rw [object?_of_none hid] at hx
        cases hx
      have hadded := h.addSession (e := .ofFolder id (s.folder.sessionFolder id) s.budget) hnew rfl
      rw [obtain, hid]
      exact hadded.saveIn (session?_addSession_self ..) page data

theorem Tidy.remove (h : s.Tidy capacity) (id : SessionId) (page : PageId) :
    (s.remove id page).Tidy capacity := by
  rw [DiskStore.remove]
  split
  · rename_i ref hid
    have hbound := h.bound id _ (object?_of_some hid)
    rw [removeFrom, Session.remove_of_bound hbound]
    exact h.set hid rfl hbound h.inUse
  · exact h

/-- With a session its data file is gone from the pool, and the others keep theirs. -/
theorem Tidy.removeSession (h : s.Tidy capacity) (id : SessionId) : (s.removeSession id).Tidy capacity := by
  rw [DiskStore.removeSession]
  split
  · rename_i ref hid
    have hobject : ∀ other, (unbind s ref).object? other = if other = id then _ else s.object? other :=
      object?_set h.distinct hid _ _
    have herased : ∀ other, object? { unbind s ref with sessions := s.sessions.erase id } other =
        if other = id then none else s.object? other := by
      intro other
      refine (object?_erase (unbind s ref) id other).trans ?_
      rw [hobject]
      split <;> rfl
    have hinUse := Session.inUse_unbind h.inUse (h.bound id _ (object?_of_some hid))
    refine ⟨((h.distinct.moves (moves_unbind s ref)).erase id), fun other x hother => ?_,
      hinUse.mono fun f _ hf => ?_⟩
    · rw [herased] at hother
      split at hother
      · cases hother
      · exact h.bound other x hother
    · obtain ⟨⟨other, x, hother, hpath⟩, hne⟩ := hf
      refine ⟨other, x, ?_, hpath⟩
      rw [herased, if_neg, hother]
      -- A file of the session itself would be the one that has been deleted.
      rintro rfl
      rw [object?_of_some hid, Option.some.injEq] at hother
      rw [hpath, ← hother, Path.isSame_self] at hne
      cases hne
  · exact h

theorem Tidy.destroy (h : s.Tidy capacity) : s.destroy.Tidy capacity := by
  have hsaved : s.saveIndex.Tidy capacity := by
    rw [saveIndex]
    split
    · exact h
    · split
      · exact h.change _
      · exact h
  exact hsaved.files hsaved.inUse.closeAll

/-- Indicates an operation on the store itself. -/
def Operation.isOnStore : Operation → Bool
  | .call _ | .destroy => true
  | .held .. => false

theorem Tidy.apply (h : s.Tidy capacity) {op : Operation} (hop : op.isOnStore = true) :
    (s.apply op).2.Tidy capacity := by
  cases op with
  | call c =>
    cases c with
    | load id page => exact h.load id page
    | store id page data => exact h.store id page data
    | remove id page => exact h.remove id page
    | removeSession id => exact h.removeSession id
  | destroy => exact h.destroy
  | held ref w => cases hop

theorem Tidy.after {ops : List Operation} (h : s.Tidy capacity)
    (hops : ∀ op ∈ ops, op.isOnStore = true) : (s.after ops).Tidy capacity := by
  induction ops generalizing s with
  | nil => exact h
  | cons op ops ih =>
    rw [List.forall_mem_cons] at hops
    exact ih (h.apply hops.1) hops.2

theorem Tidy.restore (h : s.Tidy capacity) (hempty : s.files.pool.files = [])
    (records : List SessionRecord) : (restore records s).Tidy capacity := by
  induction records generalizing s with
  | nil => exact h
  | cons r records ih =>
    rw [DiskStore.restore]
    split
    · rename_i entry hentry
      have hbound : entry.unbound = false := by
        rw [Session.ofLayout] at hentry
        cases htable : WindowTable.ofLayout r.layout s.budget with
        | ok table =>
          rw [htable] at hentry
          cases hentry
          rfl
        | error e =>
          rw [htable] at hentry
          cases hentry
      exact ih (h.addSession (fun _ _ => hempty) hbound) hempty
    · exact ih h hempty

/-- Sessions are taken over while no file is open. -/
theorem Tidy.loadIndex (h : s.Tidy capacity) (hempty : s.files.pool.files = []) :
    s.loadIndex.Tidy capacity := by
  rw [DiskStore.loadIndex]
  split
  · exact ((h.change (s.files.disk.readAll s.folder.indexFile).2).restore hempty _).change _
  · exact h

theorem tidy_of_start {folder : StoreFolder} {budget capacity : Nat} {disk : Disk}
    {objects : Heap Session} (hstart : start folder budget capacity disk objects = .ok s) :
    s.Tidy (max capacity 1) := by
  rw [start] at hstart
  split at hstart
  · rw [← Except.ok.inj hstart]
    refine Tidy.loadIndex ⟨distinct_of_noSessions _ rfl, fun id e he => ?_,
      Files.inUse_ofCapacity capacity _ _⟩ rfl
    cases he
  · cases hstart

/-- Whatever a store is asked for, and whether or not that succeeds: between any two operations no more
files are open than may be, nobody has borrowed one of them, and each is the data file of a session that
has not been removed. -/
theorem start_opens_own_files (folder : StoreFolder) (budget capacity : Nat) (disk : Disk)
    (objects : Heap Session) (ops : List Operation) {s₀ : DiskStore}
    (hstart : start folder budget capacity disk objects = .ok s₀)
    (hops : ∀ op ∈ ops, op.isOnStore = true) :
    let s := s₀.after ops
    s.files.pool.files.length ≤ max capacity 1 ∧
      ∀ f ∈ s.files.pool.files, f.borrows = 0 ∧
        ∃ id ref, s.session? id = some ref ∧ f.path = (s.objects.get ref).dataFile := by
  intro s
  have hs : s.Tidy (max capacity 1) := (tidy_of_start hstart).after hops
  refine ⟨hs.inUse.length_le, fun f hf => ⟨hs.inUse.borrows_eq_zero f hf, ?_⟩⟩
  obtain ⟨id, e, hobject, hpath⟩ := hs.inUse.allowed f hf
  obtain ⟨ref, hid, rfl⟩ := Option.map_eq_some_iff.1 hobject
  exact ⟨id, ref, hid, hpath⟩

/-- A store on a disk of which the sixth call fails. -/
def startedTorn : DiskStore :=
  (start ⟨⟨"store"⟩⟩ 9 0 Session.tornFiles.disk).toOption.getD default

/-- The first page of a session cannot be written, another session is removed while its file is open. -/
theorem start_opens_own_files_of_torn :
    let ops : List Operation := [.call (.store "a" 1 [1]), .call (.store "b" 1 [2]), .call (.load "a" 1),
      .call (.store "c" 1 [3]), .call (.removeSession "c"), .call (.store "b" 2 [4, 5])]
    let s := startedTorn.after ops
    s.files.pool.files.map (·.path.text) = ["store/b/data"] ∧
      s.files.pool.files.length ≤ 1 ∧
      ∀ f ∈ s.files.pool.files, f.borrows = 0 ∧
        ∃ id ref, s.session? id = some ref ∧ f.path = (s.objects.get ref).dataFile := by
  intro ops s
  have hstart : start ⟨⟨"store"⟩⟩ 9 0 Session.tornFiles.disk = .ok startedTorn :=
    start_of_isOk (by decide +kernel)
  exact ⟨by decide +kernel, start_opens_own_files ⟨⟨"store"⟩⟩ 9 0 Session.tornFiles.disk .empty ops
    hstart (by decide)⟩

end DiskStore

end StatefulPages
