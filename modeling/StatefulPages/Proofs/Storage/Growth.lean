import StatefulPages.Proofs.Storage.DiskRefinement

/-!
# How far a store grows

A call adds one session at most, and to the data file of a session one window or free range at most
and less than 4 GiB (`DiskStore.Bounded.call`). So the calls that were made bound the numbers of a
store (`DiskStore.InOrder.bounded_run`).
-/

namespace StatefulPages

/-! ## Layouts -/

namespace FreeRange

variable {size offset : Nat} {free rest : List FreeRange}

theorem length_attach_le (r : FreeRange) (rest : List FreeRange) :
    (attach r rest).length ≤ rest.length + 1 := by
  cases rest with
  | nil => exact Nat.le_refl _
  | cons next rest =>
    rw [attach]
    split
    · exact Nat.le_succ _
    · exact Nat.le_refl _

theorem length_insert_le (f : FreeRange) (free : List FreeRange) :
    (insert f free).length ≤ free.length + 1 := by
  induction free with
  | nil => exact Nat.le_refl _
  | cons r rest ih =>
    rw [insert]
    have hattach := length_attach_le r (insert f rest)
    split
    · rw [List.length_cons]
      omega
    · exact length_attach_le ..

theorem length_of_take? (h : take? size free = some (offset, rest)) :
    rest.length ≤ free.length := by
  obtain ⟨before, r, behind, hfree, -, -, -, hrest⟩ := exists_of_take? h
  rw [hfree, hrest]
  split <;> simp

end FreeRange

namespace Layout

theorem length_free_trim_le (l : Layout) : l.trim.free.length ≤ l.free.length := by
  rcases trim_cases l with ⟨before, r, hfree, -, htrim⟩ | ⟨-, htrim⟩
  · rw [htrim, hfree, List.length_append]
    exact Nat.le_add_right ..
  · exact Nat.le_of_eq (congrArg (fun l => l.free.length) htrim)

theorem fileEnd_trim_le (l : Layout) : l.trim.fileEnd ≤ l.fileEnd := by
  rcases trim_cases l with ⟨before, r, -, hstop, htrim⟩ | ⟨-, htrim⟩
  · rw [htrim, ← hstop]
    exact Nat.le_add_right ..
  · exact Nat.le_of_eq (congrArg Layout.fileEnd htrim)

theorem length_free_release_le (l : Layout) (w : Window) :
    (l.release w).free.length ≤ l.free.length + 1 := by
  have hinsert := FreeRange.length_insert_le { offset := w.offset, size := w.size } l.free
  rw [release]
  split
  · omega
  · exact Nat.le_trans (length_free_trim_le _) hinsert

theorem fileEnd_release_le (l : Layout) (w : Window) : (l.release w).fileEnd ≤ l.fileEnd := by
  rw [release]
  split
  · exact Nat.le_refl _
  · exact fileEnd_trim_le _

theorem length_free_allocate_le (l : Layout) (size : Nat) :
    (l.allocate size).2.free.length ≤ l.free.length := by
  rw [allocate]
  split
  · exact Nat.le_refl _
  · split
    · rename_i htake
      exact FreeRange.length_of_take? htake
    · exact Nat.le_refl _

theorem fileEnd_allocate_le (l : Layout) (size : Nat) :
    (l.allocate size).2.fileEnd ≤ l.fileEnd + size := by
  rw [allocate]
  split
  · exact Nat.le_add_right ..
  · split
    · exact Nat.le_add_right ..
    · exact Nat.le_refl _

end Layout

/-! ## Window tables -/

namespace WindowTable

variable {t : WindowTable} {w : Window} {rest : List Window} {n m size : Nat}

/-- Indicates a table that is no larger than what `n` pages can have left. -/
structure Bounded (n : Nat) (t : WindowTable) : Prop where
  count_le : t.windows.length + t.free.length ≤ n
  fileEnd_le : t.fileEnd ≤ n * Session.maxPageSize

theorem bounded_empty (n budget : Nat) : Bounded n { budget } :=
  ⟨Nat.zero_le _, Nat.zero_le _⟩

theorem Bounded.mono (h : t.Bounded n) (hle : n ≤ m) : t.Bounded m :=
  ⟨Nat.le_trans h.count_le hle, Nat.le_trans h.fileEnd_le (Nat.mul_le_mul_right _ hle)⟩

theorem Bounded.discard (h : t.Bounded n) (hlength : t.windows.length = rest.length + 1) :
    (t.discard w rest).Bounded n := by
  have hfree := Layout.length_free_release_le t.toLayout w
  have hcount := h.count_le
  refine ⟨?_, Nat.le_trans (Layout.fileEnd_release_le ..) h.fileEnd_le⟩
  show rest.length + (t.release w).free.length ≤ n
  omega

theorem Bounded.remove (h : t.Bounded n) (page : PageId) : (t.remove page).Bounded n :=
  remove_induction (fun _ _ _ hp ht => ht.discard hp.length_eq) h page

theorem Bounded.cleared (h : t.Bounded n) (page : PageId) (size : Nat) :
    (t.cleared page size).Bounded n :=
  cleared_induction (fun _ _ _ hp ht => ht.discard hp.length_eq) h page size

/-- A new window adds one to what there is, if it splits a free range or not. -/
theorem Bounded.create (h : t.Bounded n) (page : PageId) (hsize : size ≤ Session.maxPageSize) :
    (t.create page size).2.Bounded (n + 1) := by
  rw [create_eq, append_eq]
  have hcleared := h.cleared page size
  have hcount := hcleared.count_le
  have hend := hcleared.fileEnd_le
  generalize t.cleared page size = u at hcount hend
  have hfree := Layout.length_free_allocate_le u.toLayout size
  have hstop := Layout.fileEnd_allocate_le u.toLayout size
  constructor
  · show (u.windows ++ [_]).length + (u.allocate size).2.free.length ≤ n + 1
    rw [List.length_append, List.length_singleton]
    omega
  · show (u.allocate size).2.fileEnd ≤ (n + 1) * Session.maxPageSize
    rw [Nat.succ_mul]
    omega

end WindowTable

namespace Session

variable {e : Session} {n : Nat}

theorem table_prepare (e : Session) (files : Files) : (e.prepare files).1.table = e.table := by
  obtain ⟨_, hready⟩ := prepare_eq e files
  rw [hready]

theorem bounded_save (h : e.table.Bounded n) (page : PageId) (data : List UInt8) (files : Files) :
    (e.save page data files).1.table.Bounded (n + 1) := by
  rw [save]
  split
  · exact h.mono (Nat.le_succ _)
  · rename_i hcond
    rw [not_or, not_or, Nat.not_le] at hcond
    have hcreate := h.create page (Nat.le_of_lt hcond.2.1)
    rw [← table_prepare e files] at hcreate
    dsimp only
    split
    · exact hcreate
    · exact hcreate.remove page

theorem bounded_remove (h : e.table.Bounded n) (page : PageId) : (e.remove page).table.Bounded n := by
  rw [remove]
  split
  · exact h
  · exact h.remove page

theorem table_unbind (e : Session) (files : Files) : (e.unbind files).1.table = e.table := by
  rw [unbind]
  split <;> rfl

end Session

/-! ## Stores -/

namespace DiskStore

variable {s : DiskStore} {place : Location} {ids : List SessionId} {id : SessionId}
  {ref : SessionRef} {e : Session} {files : Files} {k n : Nat}

/-- Indicates a store of at most `k` sessions, each no larger than what `n` pages can have left. -/
structure Bounded (k n : Nat) (s : DiskStore) : Prop where
  size_le : s.sessions.size ≤ k
  table : ∀ id e, s.object? id = some e → e.table.Bounded n

theorem bounded_of_noSessions (h : s.sessions = {}) : s.Bounded 0 0 := by
  refine ⟨by rw [h]; exact Nat.le_refl _, fun id e he => ?_⟩
  rw [object?, session?, h] at he
  cases he

theorem Bounded.mono (h : s.Bounded k n) : s.Bounded (k + 1) (n + 1) :=
  ⟨Nat.le_succ_of_le h.size_le, fun id e he => (h.table id e he).mono (Nat.le_succ _)⟩

theorem Bounded.mono_size (h : s.Bounded k n) : s.Bounded (k + 1) n :=
  ⟨Nat.le_succ_of_le h.size_le, h.table⟩

theorem Bounded.set (h : s.Bounded k n) (hdistinct : s.Distinct) (hid : s.session? id = some ref)
    (he : e.table.Bounded (n + 1)) :
    Bounded k (n + 1) { s with objects := s.objects.set ref e, files } := by
  refine ⟨h.size_le, fun other e' hother => ?_⟩
  rw [object?_set hdistinct hid] at hother
  split at hother
  · exact Option.some.inj hother ▸ he
  · exact (h.table other e' hother).mono (Nat.le_succ _)

theorem Bounded.addSession (h : s.Bounded k n) (hdistinct : s.Distinct) (he : e.table.Bounded n) :
    (s.addSession e).Bounded (k + 1) n := by
  refine ⟨Nat.le_trans (Keyed.size_set_le ..) (Nat.succ_le_succ h.size_le),
    fun other e' hother => ?_⟩
  rw [object?_addSession hdistinct] at hother
  split at hother
  · exact Option.some.inj hother ▸ he
  · exact h.table other e' hother

theorem Bounded.erase (h : s.Bounded k n) (id : SessionId) :
    Bounded k n { s with sessions := s.sessions.erase id } := by
  refine ⟨Nat.le_trans (Keyed.size_erase_le ..) h.size_le, fun other e hother => ?_⟩
  rw [object?_erase] at hother
  split at hother
  · cases hother
  · exact h.table other e hother

theorem Bounded.obtain (h : s.Bounded k n) (hdistinct : s.Distinct) (id : SessionId) :
    ∃ ref s', s.obtain id = (ref, s') ∧ s'.session? id = some ref ∧ s'.Distinct ∧
      s'.Bounded (k + 1) n := by
  rw [DiskStore.obtain]
  cases hid : s.session? id with
  | some ref => exact ⟨ref, s, rfl, hid, hdistinct, h.mono_size⟩
  | none =>
    exact ⟨_, _, rfl, session?_addSession_self .., hdistinct.addSession _,
      h.addSession hdistinct (WindowTable.bounded_empty n s.budget)⟩

/-- What a call adds. -/
theorem Bounded.call (h : s.Bounded k n) (hdistinct : s.Distinct) (c : SessionStore.Call) :
    (SessionStore.call s c).2.Bounded (k + 1) (n + 1) := by
  cases c with
  | load id page =>
    show (s.load id page).2.Bounded (k + 1) (n + 1)
    rw [load]
    split
    · exact ⟨h.mono.size_le, h.mono.table⟩
    · exact h.mono
  | store id page data =>
    show (s.store id page data).Bounded (k + 1) (n + 1)
    rw [store]
    split
    · exact h.mono
    · obtain ⟨ref, made, hobtain, hid, hmade, hbounded⟩ := h.obtain hdistinct id
      rw [hobtain]
      exact hbounded.set hmade hid
        (Session.bounded_save (hbounded.table id _ (object?_of_some hid)) page data made.files)
  | remove id page =>
    show (s.remove id page).Bounded (k + 1) (n + 1)
    rw [remove]
    split
    · rename_i ref hid
      have htable := Session.bounded_remove (h.table id _ (object?_of_some hid)) page
      exact (h.set hdistinct hid (htable.mono (Nat.le_succ _))).mono_size
    · exact h.mono
  | removeSession id =>
    show (s.removeSession id).Bounded (k + 1) (n + 1)
    rw [removeSession]
    split
    · rename_i ref hid
      have htable := h.table id _ (object?_of_some hid)
      rw [← Session.table_unbind _ s.files] at htable
      exact ((h.set hdistinct hid (htable.mono (Nat.le_succ _))).erase id).mono_size
    · exact h.mono

/-- What several calls add. -/
theorem InOrder.bounded_run {calls : List SessionStore.Call} (h : s.InOrder ids place)
    (hbounded : s.Bounded k n) (hown : s.folder.OwnFolders ids)
    (hcalls : ∀ c ∈ calls, c.session ∈ ids ∧ c.IsAdmitted s.folder) :
    (SessionStore.run s calls).Bounded (k + calls.length) (n + calls.length) := by
  induction calls generalizing s k n with
  | nil => exact hbounded
  | cons c calls ih =>
    obtain ⟨hid, hadmitted⟩ := hcalls c (by simp)
    obtain ⟨-, -, hkept, hfolder⟩ := h.call hown hid hadmitted
    rw [← hfolder] at hown hcalls
    have hrest := ih hkept (hbounded.call h.distinct c) hown fun c hc =>
      hcalls c (List.mem_cons_of_mem _ hc)
    rw [SessionStore.run, List.length_cons, Nat.add_comm calls.length, ← Nat.add_assoc,
      ← Nat.add_assoc]
    exact hrest

end DiskStore

end StatefulPages
