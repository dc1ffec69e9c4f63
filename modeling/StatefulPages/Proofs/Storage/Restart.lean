import Mathlib.Data.List.Basic
import StatefulPages.Proofs.Storage.Growth
import StatefulPages.Proofs.Storage.IndexCodec
import StatefulPages.Proofs.Storage.LayoutCheck
import StatefulPages.Proofs.Text.Escapes

/-!
# Restarts

A store that is stopped writes its sessions to an index, and one that is started in the same folder
takes them over. If the numbers fit into the index (`DiskStore.FitsIndex`), nobody can tell; they are the
counts without which no index can be written, and after fewer than 2³² calls they fit
(`InOrder.fitsIndex`):

* `layout_ofLayout`: a layout is read from its record as it was;
* `mem_index`, `nodup_index`: the index has a record for each session, and one only;
* `restored_restore`, `restored_index`: each record becomes a session again;
* `destroy_of_sessions`: stopping a store leaves its index;
* `InOrder.restart`: the new store has the same sessions, and its folder has no index any more;
* `restart_invisible`: whatever is done with the store later is answered as if there had been no
  restart.
-/

namespace StatefulPages

namespace SessionRecord

variable {l : Layout}

/-- Indicates a layout whose numbers fit into the fields of a record. -/
structure Fits (l : Layout) : Prop where
  window_lt : ∀ w ∈ l.windows, w.size < UInt32.size ∧ w.offset < UInt64.size
  free_lt : ∀ r ∈ l.free, r.offset < UInt64.size ∧ r.size < UInt64.size
  fileEnd_lt : l.fileEnd < UInt64.size

/-- A layout is read from its record as it was. -/
theorem layout_ofLayout (h : Fits l) (id : String) : (ofLayout id l).layout = l := by
  have hwindows : (ofLayout id l).layout.windows = l.windows := by
    show (l.windows.map _).map _ = l.windows
    rw [List.map_map]
    refine (List.map_congr_left fun w hw => ?_).trans (List.map_id _)
    obtain ⟨hsize, hoffset⟩ := h.window_lt w hw
    simp only [Function.comp, UInt32.toNat_ofNat_of_lt' hsize, UInt64.toNat_ofNat_of_lt' hoffset]
    rfl
  have hfree : (ofLayout id l).layout.free = l.free := by
    show (l.free.map _).map _ = l.free
    rw [List.map_map]
    refine (List.map_congr_left fun r hr => ?_).trans (List.map_id _)
    obtain ⟨hoffset, hsize⟩ := h.free_lt r hr
    simp only [Function.comp, UInt64.toNat_ofNat_of_lt' hsize, UInt64.toNat_ofNat_of_lt' hoffset]
    rfl
  have hend : (ofLayout id l).layout.fileEnd = l.fileEnd := UInt64.toNat_ofNat_of_lt' h.fileEnd_lt
  cases l with
  | mk windows free fileEnd => exact Layout.mk.injEq .. ▸ ⟨hwindows, hfree, hend⟩

end SessionRecord

namespace WindowTable

variable {t : WindowTable}

/-- The numbers of a table fit into a record if the end of the file and the sizes of pages do. -/
theorem WellKept.fits (h : t.WellKept) (hsize : ∀ w ∈ t.windows, 0 < w.size ∧ w.size < UInt32.size)
    (hend : t.fileEnd < UInt64.size) : SessionRecord.Fits t.toLayout where
  window_lt := by
    intro w hw
    obtain ⟨hpos, hlt⟩ := hsize w hw
    have hstart := h.tight.window_lt w.offset ⟨w, hw, Nat.le_refl _, Nat.lt_add_of_pos_right hpos⟩
    exact ⟨hlt, Nat.lt_trans hstart hend⟩
  free_lt := by
    intro r hr
    have hpos := FreeRange.size_pos_of_spaced h.tight.spaced hr
    have hstop : r.stop - 1 < t.fileEnd := by
      refine h.tight.free_lt _ ⟨r, hr, ?_⟩
      simp only [FreeRange.Holds, FreeRange.stop]
      omega
    simp only [FreeRange.stop] at hstop
    omega
  fileEnd_lt := hend

/-- A table is read from the record of its layout as it was. -/
theorem WellKept.ofLayout_layout (h : t.WellKept) (hfits : SessionRecord.Fits t.toLayout)
    (id : String) : ofLayout (SessionRecord.ofLayout id t.toLayout).layout t.budget = .ok t := by
  rw [SessionRecord.layout_ofLayout hfits, ofLayout_of_consistent h.tight.toConsistent]
  cases t with
  | mk toLayout total budget =>
    have htotal : total = toLayout.totalSize := h.total_eq
    rw [htotal]

end WindowTable

namespace StoreFolder

theorem length_encode_plainChar (c : Char) :
    (Text.Utf8.encodeChar (plainChar c)).length = (Text.Utf8.encodeChar c).length := by
  rw [plainChar]
  split
  · rename_i h
    rcases h with rfl | rfl | rfl | rfl <;> decide
  · rfl

/-- A session id has no more bytes than the name of its folder. -/
theorem length_ofString_le (session : SessionId) :
    (Text.Utf8.ofString session).length ≤ (folderName session).utf8ByteSize := by
  have hname : (folderName session).utf8ByteSize =
      (Text.Utf8.ofString (folderName session)).length := rfl
  have hplain : (Text.Utf8.encode (session.toList.map plainChar)).length =
      (Text.Utf8.encode session.toList).length := by
    rw [Text.Utf8.encode, Text.Utf8.encode, List.length_flatMap, List.length_flatMap, List.map_map]
    exact congrArg List.sum (List.map_congr_left fun c _ => length_encode_plainChar c)
  rw [hname, Text.Utf8.ofString_eq, Text.Utf8.ofString_eq, ← hplain, folderName,
    String.toList_ofList]
  split
  · rename_i hdots
    have hone : ∀ (cs : List Char) (c : Char), (∀ d ∈ cs, d = c) →
        (Text.Utf8.encodeChar c).length = 1 → (Text.Utf8.encode cs).length = cs.length := by
      intro cs c hcs hc
      induction cs with
      | nil => rfl
      | cons d cs ih =>
        rw [Text.Utf8.encode, List.flatMap_cons, List.length_append, hcs d List.mem_cons_self, hc,
          List.length_cons, Nat.add_comm]
        exact congrArg (· + 1) (ih fun x hx => hcs x (List.mem_cons_of_mem _ hx))
    rw [hone _ '.' (by simpa using hdots) (by decide),
      hone _ '_' (fun d hd => List.eq_of_mem_replicate hd) (by decide), List.length_replicate]
    exact Nat.le_max_left ..
  · exact Nat.le_refl _

theorem below_indexFile {f : StoreFolder} (hpath : Disk.badPath? f.indexFile = none) :
    Path.Below f.root f.indexFile [indexName] :=
  Path.below_join (by decide) (by decide) hpath

end StoreFolder

namespace DiskStore

variable {s s' : DiskStore} {place : Location} {ids : List SessionId} {id : SessionId}
  {e : Session} {r : SessionRecord}

/-! ## The index of a store -/

theorem mem_entries_iff (h : s.Distinct) {ref : SessionRef} :
    (id, ref) ∈ s.sessions.entries ↔ s.session? id = some ref :=
  (Keyed.get?_eq_some_iff h.names_nodup).symm

theorem mem_live (h : s.Distinct) (he : s.object? id = some e) : e ∈ s.live := by
  obtain ⟨ref, href, hget⟩ := Option.map_eq_some_iff.1 he
  have hvalue : ref ∈ s.sessions.values := List.mem_map_of_mem ((mem_entries_iff h).2 href)
  exact hget ▸ List.mem_map_of_mem hvalue

/-- The index has a record for each session, in some order. -/
theorem index_perm (h : s.InOrder ids place) : s.index.sessions.Perm
    (s.sessions.entries.map fun x =>
      SessionRecord.ofLayout x.1 (s.objects.get x.2).table.toLayout) := by
  refine (List.mergeSort_perm ..).trans (.of_eq ?_)
  rw [live, Keyed.values, List.filterMap_map, List.filterMap_map,
    List.filterMap_eq_map_iff_forall_eq_some]
  intro x hx
  have hfor := h.isFor x.1 _ (object?_of_some ((mem_entries_iff h.distinct).1 hx))
  simp only [Function.comp, Session.layout?, hfor.settled.bound, hfor.id_eq, Bool.false_eq_true,
    ↓reduceIte, Option.map_some]

theorem mem_index (h : s.InOrder ids place) : r ∈ s.index.sessions ↔
    ∃ id e, s.object? id = some e ∧ r = SessionRecord.ofLayout id e.table.toLayout := by
  rw [(index_perm h).mem_iff, List.mem_map]
  constructor
  · intro ⟨x, hx, hr⟩
    exact ⟨x.1, _, object?_of_some ((mem_entries_iff h.distinct).1 hx), hr.symm⟩
  · intro ⟨id, e, hentry, hr⟩
    obtain ⟨ref, href, he⟩ := Option.map_eq_some_iff.1 hentry
    exact ⟨(id, ref), (mem_entries_iff h.distinct).2 href, by rw [hr, ← he]⟩

theorem ne_of_mem_index (h : s.InOrder ids place) (hnone : s.object? id = none)
    (hr : r ∈ s.index.sessions) : r.id ≠ id := by
  intro heq
  obtain ⟨other, e, he, hrecord⟩ := (mem_index h).1 hr
  have hid : other = id := by rw [← heq, hrecord]; rfl
  rw [hid, hnone] at he
  cases he

theorem nodup_index (h : s.InOrder ids place) : (s.index.sessions.map (·.id)).Nodup := by
  rw [((index_perm h).map _).nodup_iff, List.map_map]
  exact h.distinct.names_nodup

/-! ## Taking sessions over -/

/-- What a store has after it has taken records over. -/
structure Restored (records : List SessionRecord) (entry : SessionRecord → Session)
    (s s' : DiskStore) : Prop where
  distinct : s'.Distinct
  folder_eq : s'.folder = s.folder
  budget_eq : s'.budget = s.budget
  files_eq : s'.files = s.files
  entry_eq : ∀ r ∈ records, s'.object? r.id = some (entry r)
  entry_other : ∀ id, (∀ r ∈ records, r.id ≠ id) → s'.object? id = s.object? id

/-- Each record becomes a session. -/
theorem restored_restore {records : List SessionRecord} {entry : SessionRecord → Session}
    (h : s.Distinct) (hnodup : (records.map (·.id)).Nodup)
    (hentry : ∀ r ∈ records, (entry r).id = r.id ∧
      Session.ofLayout r.id (s.folder.sessionFolder r.id) r.layout s.budget s.files.disk =
        .ok (entry r)) : Restored records entry s (restore records s) := by
  induction records generalizing s with
  | nil =>
    exact ⟨h, rfl, rfl, rfl, fun r hr => absurd hr List.not_mem_nil, fun id _ => rfl⟩
  | cons r records ih =>
    rw [List.map_cons, List.nodup_cons] at hnodup
    obtain ⟨hid, hok⟩ := hentry r (by simp)
    have hrest := ih (s := s.addSession (entry r)) (h.addSession (entry r)) hnodup.2
      fun x hx => hentry x (List.mem_cons_of_mem _ hx)
    have hdiffer : ∀ x ∈ records, x.id ≠ r.id := fun x hx heq =>
      hnodup.1 (heq ▸ List.mem_map_of_mem hx)
    have hadded := object?_addSession h (entry r)
    rw [hid] at hadded
    rw [restore, hok]
    refine {
      distinct := hrest.distinct
      folder_eq := hrest.folder_eq
      budget_eq := hrest.budget_eq
      files_eq := hrest.files_eq
      entry_eq := fun x hx => ?_
      entry_other := fun id hne => ?_ }
    · rcases List.mem_cons.1 hx with hx | hx
      · rw [hx, hrest.entry_other r.id hdiffer, hadded, if_pos rfl]
      · exact hrest.entry_eq x hx
    · rw [hrest.entry_other id fun x hx => hne x (List.mem_cons_of_mem _ hx), hadded,
        if_neg (Ne.symm (hne r (by simp)))]

/-! ## The new store -/

/-- Indicates a store that was started where another one was stopped: it has the sessions of that one,
but no open file, and its folder has no index. -/
structure Resumed (place : Location) (s s' : DiskStore) : Prop where
  distinct : s'.Distinct
  object?_eq : ∀ id, s'.object? id = s.object? id
  folder_eq : s'.folder = s.folder
  budget_eq : s'.budget = s.budget
  changes : Disk.ChangesIn place StoreFolder.indexName s.files.disk s'.files.disk
  noIndex : s'.files.disk.get? (place ++ [StoreFolder.indexName]) = none
  closed : ∀ q n, ¬ s'.files.pool.Has q n

/-- The new store is in order and amounts to the same. -/
theorem InOrder.resumed (h : s.InOrder ids place)
    (hindex : ∀ id ∈ ids, StoreFolder.folderName id ≠ StoreFolder.indexName)
    (hr : Resumed place s s') : s'.InOrder ids place ∧ s'.toAged place = s.toAged place := by
  have hframe : ∀ id e, s.object? id = some e →
      e.IsFor s.folder s.budget place id s'.files ∧
        e.pagesOn place (StoreFolder.folderName id) s'.files.disk =
          e.pagesOn place (StoreFolder.folderName id) s.files.disk := fun id e he =>
    h.frame he hr.changes (hindex id (h.known id e he)) fun q n hq => absurd hq (hr.closed q n)
  constructor
  · refine {
      rooted := hr.folder_eq ▸ hr.changes.rooted _ h.rooted
      separate := h.separate.changesIn hr.changes
      distinct := hr.distinct
      known := fun id e he => h.known id e (hr.object?_eq id ▸ he)
      isFor := fun id e he => ?_
      exists_object := fun name hname => ?_
      pooled := fun q n hq => absurd hq (hr.closed q n) }
    · rw [hr.folder_eq, hr.budget_eq]
      exact (hframe id e (hr.object?_eq id ▸ he)).1
    · have hne : name ≠ StoreFolder.indexName := fun heq => hname (heq ▸ hr.noIndex)
      obtain ⟨id, e, he, heq⟩ := h.exists_object name
        fun hnone => hname ((hr.changes.get?_eq name [] hne).trans hnone)
      exact ⟨id, e, (hr.object?_eq id).trans he, heq⟩
  · refine toAged_eq hr.budget_eq fun id => ?_
    rw [pagesOf, hr.object?_eq]
    show _ = s.pagesOf place id
    rw [pagesOf]
    cases he : s.object? id with
    | none => rfl
    | some e => exact (hframe id e he).2

/-- A session is made again of its record. -/
theorem ofLayout_of_isFor {f : StoreFolder} {budget : Nat} {files : Files} {d : Disk}
    (h : e.IsFor f budget place id files) (hfits : SessionRecord.Fits e.table.toLayout)
    (hrooted : d.Rooted f.root place)
    (hplace : d.get? (place ++ [StoreFolder.folderName id]) =
      files.disk.get? (place ++ [StoreFolder.folderName id])) :
    Session.ofLayout id (f.sessionFolder id)
      (SessionRecord.ofLayout id e.table.toLayout).layout budget d = .ok e := by
  have hready : d.isFolder (f.sessionFolder id) = e.folderReady := by
    have hiff := Disk.isFolder_of_below hrooted (h.folder_eq ▸ h.settled.folder_below)
    rw [Disk.IsFolderAt, hplace] at hiff
    cases hr : e.folderReady with
    | true => exact hiff.2 (h.settled.ready hr)
    | false =>
      rw [h.settled.notReady hr] at hiff
      exact Bool.eq_false_iff.2 fun htrue => hiff.1 htrue
  have htable := h.settled.wellKept.ofLayout_layout hfits id
  rw [h.budget_eq] at htable
  rw [Session.ofLayout, htable, hready, ← h.folder_eq]
  refine congrArg Except.ok ?_
  have hid := h.id_eq
  have hbound := h.settled.bound
  cases e
  cases hid
  cases hbound
  rfl

/-- Indicates a store whose numbers fit into its index. Its format limits them: the number of sessions, the
bytes of their ids and their numbers of windows and of free ranges each have to be below 2³², or no index is
written; the ends of the data files are numbers of 64 bits. -/
structure FitsIndex (s : DiskStore) : Prop where
  size_lt : s.sessions.size < Text.wordCount
  fits : ∀ e ∈ s.live, StoreIndex.fits (SessionRecord.ofLayout e.id e.table.toLayout)
  fileEnd_lt : ∀ e ∈ s.live, e.table.fileEnd < UInt64.size

instance (s : DiskStore) : Decidable s.FitsIndex :=
  decidable_of_iff (s.sessions.size < Text.wordCount ∧
      (∀ e ∈ s.live, StoreIndex.fits (SessionRecord.ofLayout e.id e.table.toLayout)) ∧
      ∀ e ∈ s.live, e.table.fileEnd < UInt64.size)
    ⟨fun h => ⟨h.1, h.2.1, h.2.2⟩, fun h => ⟨h.size_lt, h.fits, h.fileEnd_lt⟩⟩

theorem FitsIndex.exists_bytes (h : s.FitsIndex) (horder : s.InOrder ids place) :
    ∃ bytes, s.index.toBytes = .ok bytes := by
  have hperm := index_perm horder
  refine StoreIndex.toBytes_of_fits ?_ fun r hr => ?_
  · rw [hperm.length_eq, List.length_map]
    exact h.size_lt
  · obtain ⟨id, e, he, hrecord⟩ := (mem_index horder).1 hr
    rw [hrecord, ← (horder.isFor id e he).id_eq]
    exact h.fits e (mem_live horder.distinct he)

/-- After fewer than 2³² calls the numbers of a store fit into its index. -/
theorem InOrder.fitsIndex {k n : Nat} (h : s.InOrder ids place) (hbounded : s.Bounded k n)
    (hk : k < Text.wordCount) (hn : n < Text.wordCount) : s.FitsIndex := by
  have hlive : ∀ e ∈ s.live, ∃ id, s.object? id = some e := by
    intro e he
    obtain ⟨ref, href, hget⟩ := List.mem_map.1 he
    obtain ⟨x, hx, hsnd⟩ := List.mem_map.1 href
    have hentry := object?_of_some ((mem_entries_iff h.distinct).1 hx)
    rw [hsnd, hget] at hentry
    exact ⟨x.1, hentry⟩
  refine ⟨Nat.lt_of_le_of_lt hbounded.size_le hk, fun e he => ?_, fun e he => ?_⟩
  · obtain ⟨id, hid⟩ := hlive e he
    have hfor := h.isFor id e hid
    have hcount := (hbounded.table id e hid).count_le
    have hname := hfor.settled.folder_below.name_le _ (List.mem_singleton.2 rfl)
    have hlength := Nat.le_trans (StoreFolder.length_ofString_le id) hname
    have hmax : Tree.maxNameLength < Text.wordCount := by decide
    rw [← hfor.id_eq] at hlength
    rw [StoreIndex.fits, SessionRecord.ofLayout, List.length_map, List.length_map, Bool.and_eq_true,
      Bool.and_eq_true]
    refine ⟨⟨decide_eq_true ?_, decide_eq_true ?_⟩, decide_eq_true ?_⟩
    · show (Text.Utf8.ofString e.id).length < _
      omega
    · show e.table.windows.length < _
      omega
    · show e.table.free.length < _
      omega
  · obtain ⟨id, hid⟩ := hlive e he
    have hend := (hbounded.table id e hid).fileEnd_le
    have hproduct : n * Session.maxPageSize ≤ (Text.wordCount - 1) * Session.maxPageSize :=
      Nat.mul_le_mul_right _ (Nat.le_sub_one_of_lt hn)
    have hsize : (Text.wordCount - 1) * Session.maxPageSize < UInt64.size := by decide
    omega

/-- Loading an index takes its sessions over and deletes it. -/
theorem loadIndex_of_file {n : Nat} {index : StoreIndex}
    (hrooted : s.files.disk.Rooted s.folder.root place)
    (hbelow : Path.Below s.folder.root s.folder.indexFile [StoreFolder.indexName])
    (hfile : s.files.disk.get? (place ++ [StoreFolder.indexName]) = some (.file n))
    (hparse : StoreIndex.parse (s.files.disk.contents.get n).toList = .ok index) :
    s.loadIndex =
      let t := restore index.sessions { s with files := { s.files with disk := s.files.disk.tick } }
      { t with files := { t.files with disk := (t.files.disk.deleteFile s.folder.indexFile).2 } } := by
  have hplace : place ++ [] = place := List.append_nil place
  have hlookup := Disk.lookup_of_file [] hrooted hbelow (hplace.symm ▸ hrooted.isFolderAt)
    (hplace.symm ▸ hfile)
  have hthere : s.files.disk.isThere s.folder.indexFile = true := by
    rw [Disk.isThere, hlookup]
    rfl
  rw [loadIndex, hthere]
  simp only [↓reduceIte, Disk.readAll_of_file hrooted.sound hlookup, Except.toOption, Option.map_some,
    hparse]

/-- No session is in the way of the index. -/
theorem InOrder.noIndex (h : s.InOrder ids place)
    (hindex : ∀ id ∈ ids, StoreFolder.folderName id ≠ StoreFolder.indexName) :
    s.files.disk.get? (place ++ [StoreFolder.indexName]) = none := by
  refine Decidable.byContradiction fun hthere => ?_
  obtain ⟨id, e, he, heq⟩ := h.exists_object _ hthere
  exact hindex id (h.known id e he) heq

/-- A store without sessions is stopped without a trace. -/
theorem disk_destroy_of_noSessions (hempty : s.index.sessions = []) :
    s.destroy.files.disk = s.files.disk := by
  rw [destroy, saveIndex, if_pos hempty]
  rfl

/-- A store that is started where one without sessions was stopped has none either. -/
theorem resumed_of_noSessions (h : s.InOrder ids place)
    (hroot : Disk.badPath? s.folder.root = none)
    (hnone : s.files.disk.get? (place ++ [StoreFolder.indexName]) = none)
    (hempty : s.index.sessions = []) (capacity : Nat) (objects : Heap Session) :
    ∃ s', start s.folder s.budget capacity s.destroy.files.disk objects = .ok s' ∧
      Resumed place s s' := by
  have hdestroy := disk_destroy_of_noSessions hempty
  have hnot : s.files.disk.tick.isThere s.folder.indexFile = false :=
    Disk.isThere_of_none h.rooted.tick (by decide) (by decide) hnone
  have hentry : ∀ id, s.object? id = none := by
    intro id
    cases he : s.object? id with
    | none => rfl
    | some e =>
      have hmem := (mem_index h).2 ⟨id, e, he, rfl⟩
      rw [hempty] at hmem
      cases hmem
  let started : DiskStore :=
    { folder := s.folder, budget := s.budget, objects
      files := { pool := .ofCapacity capacity, disk := s.files.disk.tick } }
  refine ⟨started, ?_, ?_⟩
  · rw [hdestroy, start, Disk.createFolders_of_rooted h.rooted hroot]
    dsimp only
    rw [loadIndex, hnot]
    rfl
  · exact ⟨distinct_of_noSessions started rfl, fun id => (hentry id).symm ▸ rfl, rfl, rfl, .tick ..,
      hnone, fun q n => FilePool.not_has_ofCapacity capacity⟩

/-- A store with sessions that is stopped leaves its index, and nothing else is changed. -/
theorem destroy_of_sessions (h : s.InOrder ids place)
    (hbelow : Path.Below s.folder.root s.folder.indexFile [StoreFolder.indexName])
    (hnone : s.files.disk.get? (place ++ [StoreFolder.indexName]) = none)
    (hsome : s.index.sessions ≠ []) (hfits : s.FitsIndex) :
    ∃ n, Disk.ChangesIn place StoreFolder.indexName s.files.disk s.destroy.files.disk ∧
      s.destroy.files.disk.get? (place ++ [StoreFolder.indexName]) = some (.file n) ∧
      StoreIndex.parse (s.destroy.files.disk.contents.get n).toList = .ok s.index := by
  obtain ⟨bytes, hbytes⟩ := hfits.exists_bytes h
  have hparse := StoreIndex.parse_toBytes hbytes
  have hdata : bytes ≠ [] := by
    intro hnil
    rw [hnil] at hparse
    cases hparse
  obtain ⟨n, d, hwrite, hc, hfile, hcontent⟩ := Disk.writeAll_of_none h.rooted hbelow hnone hdata
  have hdestroy : s.destroy.files.disk = d := by
    rw [destroy, saveIndex, if_neg hsome, hbytes]
    dsimp only
    rw [hwrite]
    rfl
  rw [hdestroy]
  exact ⟨n, hc, hfile, hcontent.symm ▸ hparse⟩

/-- The records of a store become its sessions again, if only the index has changed on its disk. -/
theorem restored_index (h : s.InOrder ids place)
    (hindex : ∀ id ∈ ids, StoreFolder.folderName id ≠ StoreFolder.indexName)
    (hfits : s.FitsIndex) (hnone : s'.sessions = {}) (hfolder : s'.folder = s.folder)
    (hbudget : s'.budget = s.budget)
    (hc : Disk.ChangesIn place StoreFolder.indexName s.files.disk s'.files.disk) :
    let restored := restore s.index.sessions s'
    restored.Distinct ∧ restored.folder = s.folder ∧ restored.budget = s.budget ∧
      restored.files = s'.files ∧ ∀ id, restored.object? id = s.object? id := by
  have hrecord : ∀ r ∈ s.index.sessions, ((s.object? r.id).getD default).id = r.id ∧
      Session.ofLayout r.id (s'.folder.sessionFolder r.id) r.layout s'.budget s'.files.disk =
        .ok ((s.object? r.id).getD default) := by
    intro r hr
    obtain ⟨id, e, he, hrecord⟩ := (mem_index h).1 hr
    have hfor := h.isFor id e he
    have hid : r.id = id := by rw [hrecord]; rfl
    have hfitting := hfor.settled.wellKept.fits hfor.settled.window_size
      (hfits.fileEnd_lt e (mem_live h.distinct he))
    have hplace := hc.get?_eq (StoreFolder.folderName id) [] (hindex id (h.known id e he))
    rw [hid, he, Option.getD_some, hrecord, hfolder, hbudget]
    exact ⟨hfor.id_eq, ofLayout_of_isFor hfor hfitting (hc.rooted _ h.rooted) hplace⟩
  have hrestored := restored_restore (distinct_of_noSessions s' hnone) (nodup_index h) hrecord
  refine ⟨hrestored.distinct, hrestored.folder_eq.trans hfolder, hrestored.budget_eq.trans hbudget,
    hrestored.files_eq, fun id => ?_⟩
  cases he : s.object? id with
  | some e =>
    have hentry := hrestored.entry_eq _ ((mem_index h).2 ⟨id, e, he, rfl⟩)
    exact hentry.trans (congrArg (fun x => some (x.getD default)) he)
  | none =>
    have hother : ∀ r ∈ s.index.sessions, r.id ≠ id := fun r hr => ne_of_mem_index h he hr
    have hempty : s'.object? id = none := by
      rw [object?, session?, hnone]
      rfl
    rw [hrestored.entry_other id hother, hempty]

/-- A store that is started where one with sessions was stopped has these. -/
theorem resumed_of_sessions (h : s.InOrder ids place)
    (hindex : ∀ id ∈ ids, StoreFolder.folderName id ≠ StoreFolder.indexName)
    (hroot : Disk.badPath? s.folder.root = none)
    (hbelow : Path.Below s.folder.root s.folder.indexFile [StoreFolder.indexName])
    (hsome : s.index.sessions ≠ []) (hfits : s.FitsIndex) (capacity : Nat)
    (objects : Heap Session) :
    ∃ s', start s.folder s.budget capacity s.destroy.files.disk objects = .ok s' ∧
      Resumed place s s' := by
  obtain ⟨n, hc, hfile, hparse⟩ := destroy_of_sessions h hbelow (h.noIndex hindex) hsome hfits
  generalize s.destroy.files.disk = d at hc hfile hparse ⊢
  have hrooted : d.Rooted s.folder.root place := hc.rooted _ h.rooted
  let started : DiskStore :=
    { folder := s.folder, budget := s.budget, objects
      files := { pool := .ofCapacity capacity, disk := d.tick } }
  have hstart : start s.folder s.budget capacity d objects = .ok started.loadIndex := by
    rw [start, Disk.createFolders_of_rooted hrooted hroot]
  have hload := loadIndex_of_file (s := started) hrooted.tick hbelow hfile hparse
  let reading : DiskStore := { started with files := { started.files with disk := d.tick.tick } }
  have hnone : reading.sessions = {} := rfl
  obtain ⟨hdistinct, hfolder, hbudget, hfiles, hentry⟩ := restored_index h hindex hfits hnone rfl rfl
    ((hc.trans (.tick ..)).trans (.tick ..))
  have hplace : place ++ [] = place := List.append_nil place
  have hdelete : ((restore s.index.sessions reading).files.disk.deleteFile s.folder.indexFile).2 =
      d.tick.tick.tick.put (place ++ [StoreFolder.indexName]) none := by
    have hdeleted := Disk.deleteFile_of_file [] hrooted.tick.tick hbelow
      (hplace.symm ▸ hrooted.isFolderAt) (hplace.symm ▸ hfile)
    rw [hplace] at hdeleted
    rw [hfiles, hdeleted]
  have hgone := Disk.get?_put_self (d := d.tick.tick.tick) hrooted.isFolderAt
    StoreFolder.indexName none
  have hchanges := (((hc.trans (.tick ..)).trans (.tick ..)).trans (.tick ..)).trans
    (.put_none (d := d.tick.tick.tick) hrooted.isFolderAt StoreFolder.indexName)
  rw [← hdelete] at hchanges hgone
  refine ⟨_, hstart.trans (congrArg Except.ok hload), ?_, hentry, hfolder, hbudget, hchanges, hgone,
    fun q n hq => ?_⟩
  · exact ⟨hdistinct.names_nodup, hdistinct.ref_lt, hdistinct.id_eq⟩
  · have hpool : (restore s.index.sessions reading).files.pool = .ofCapacity capacity := by
      rw [hfiles]
    exact FilePool.not_has_ofCapacity capacity (hpool ▸ hq)

/-- A store that is started where another one was stopped has its sessions and pages. -/
theorem InOrder.restart (h : s.InOrder ids place)
    (hindex : ∀ id ∈ ids, StoreFolder.folderName id ≠ StoreFolder.indexName)
    (hpath : Disk.badPath? s.folder.indexFile = none) (hfits : s.FitsIndex) (capacity : Nat)
    (objects : Heap Session) :
    ∃ s', start s.folder s.budget capacity s.destroy.files.disk objects = .ok s' ∧
      s'.InOrder ids place ∧ s'.folder = s.folder ∧ s'.toAged place = s.toAged place ∧
      (∀ id, s'.object? id = s.object? id) ∧ s'.files.disk.isThere s'.folder.indexFile = false := by
  have hname : Path.IsName StoreFolder.indexName := by decide
  have hlen : StoreFolder.indexName.utf8ByteSize ≤ Tree.maxNameLength := by decide
  have hbelow := StoreFolder.below_indexFile hpath
  have hroot : Disk.badPath? s.folder.root = none := Path.badPath?_of_join hname hpath
  obtain ⟨s', hstart, hresumed⟩ : ∃ s',
      start s.folder s.budget capacity s.destroy.files.disk objects = .ok s' ∧
        Resumed place s s' := by
    by_cases hempty : s.index.sessions = []
    · exact resumed_of_noSessions h hroot (h.noIndex hindex) hempty capacity objects
    · exact resumed_of_sessions h hindex hroot hbelow hempty hfits capacity objects
  obtain ⟨horder, haged⟩ := h.resumed hindex hresumed
  refine ⟨s', hstart, horder, hresumed.folder_eq, haged, hresumed.object?_eq, ?_⟩
  exact Disk.isThere_of_none horder.rooted hname hlen hresumed.noIndex

/-! ## What follows for later calls -/

variable {folder : StoreFolder} {disk : Disk} {calls : List SessionStore.Call}

/-- Stores in order that amount to the same give the same answers. -/
theorem InOrder.answers_congr (h : s.InOrder ids place) (h' : s'.InOrder ids place)
    (hfolder : s'.folder = s.folder) (haged : s'.toAged place = s.toAged place)
    (hown : s.folder.OwnFolders ids)
    (hcalls : ∀ c ∈ calls, c.session ∈ ids ∧ c.IsAdmitted s.folder) :
    SessionStore.answers s' calls = SessionStore.answers s calls := by
  induction calls generalizing s s' with
  | nil => rfl
  | cons c calls ih =>
    obtain ⟨hid, hadmitted⟩ := hcalls c (by simp)
    obtain ⟨hanswer, hnext, hkept, hsame⟩ := h.call hown hid hadmitted
    obtain ⟨hanswer', hnext', hkept', hsame'⟩ := h'.call (hfolder ▸ hown) hid (hfolder ▸ hadmitted)
    rw [SessionStore.answers, SessionStore.answers, hanswer, hanswer', haged,
      ih hkept hkept' (hsame'.trans (hfolder.trans hsame.symm))
        (hnext'.trans (haged ▸ hnext.symm)) (hsame ▸ hown)
        fun c hc => hsame ▸ hcalls c (List.mem_cons_of_mem _ hc)]

/-- A restart is invisible. Whatever was done with a store that began in an empty folder, one that is
started after it was stopped has its sessions, leaves no index behind, and answers as it would have
answered, if the number of sessions, the bytes of their ids and their numbers of windows and of free ranges
are within the limits of the index. They are after fewer than 2³² calls. -/
theorem restart_invisible (folder : StoreFolder) (budget capacity : Nat)
    (objects objects' : Heap Session) (calls later : List SessionStore.Call)
    (hdisk : disk.OffersEmpty folder.root place)
    (hpath : Disk.badPath? folder.indexFile = none)
    (hown : folder.OwnFolders ((calls ++ later).map SessionStore.Call.session))
    (hindex : ∀ c ∈ calls ++ later, folder.sessionFolder c.session ≠ folder.indexFile)
    (hadmitted : ∀ c ∈ calls ++ later, c.IsAdmitted folder) :
    ∃ s₀ s, start folder budget capacity disk objects = .ok s₀ ∧ s = SessionStore.run s₀ calls ∧
      (calls.length < Text.wordCount → s.FitsIndex) ∧
      (s.FitsIndex → ∃ s',
        start folder budget capacity (SessionStore.destroy s).files.disk objects' = .ok s' ∧
        (∀ id, s'.object? id = s.object? id) ∧
        s'.files.disk.isThere folder.indexFile = false ∧
        SessionStore.answers s' later = SessionStore.answers s later) := by
  have hids : ∀ c ∈ calls ++ later, c.session ∈ (calls ++ later).map SessionStore.Call.session ∧
      c.IsAdmitted folder := fun c hc => ⟨List.mem_map_of_mem hc, hadmitted c hc⟩
  obtain ⟨s₀, hstart, horder, hfolder, hsessions, haged⟩ := start_of_offersEmpty hdisk
    ((calls ++ later).map SessionStore.Call.session) budget capacity objects
  obtain ⟨hrun, hsame, hbudget⟩ := horder.run (hfolder ▸ hown) fun c hc =>
    hfolder ▸ hids c (List.mem_append_left _ hc)
  have hname : ∀ id ∈ (calls ++ later).map SessionStore.Call.session,
      StoreFolder.folderName id ≠ StoreFolder.indexName := by
    intro id hid heq
    obtain ⟨c, hc, hsession⟩ := List.mem_map.1 hid
    refine hindex c hc ?_
    rw [StoreFolder.sessionFolder, StoreFolder.indexFile, hsession, heq]
  have hfolder' := hsame.trans hfolder
  have hbudget' : (SessionStore.run s₀ calls).budget = budget :=
    hbudget.trans (congrArg AgedStore.budget haged)
  have hstarted : s₀.Bounded 0 0 := bounded_of_noSessions hsessions
  have hbounded := horder.bounded_run hstarted (hfolder ▸ hown) fun c hc =>
    hfolder ▸ hids c (List.mem_append_left _ hc)
  rw [Nat.zero_add] at hbounded
  refine ⟨s₀, _, hstart, rfl, fun hfew => hrun.fitsIndex hbounded hfew hfew, fun hfits => ?_⟩
  obtain ⟨s', hstart', horder', hkeep, haged', hentry, hgone⟩ :=
    hrun.restart hname (hfolder' ▸ hpath) hfits capacity objects'
  rw [hfolder', hbudget'] at hstart'
  rw [hkeep, hfolder'] at hgone
  refine ⟨s', hstart', hentry, hgone, ?_⟩
  exact hrun.answers_congr horder' hkeep haged' (hfolder' ▸ hown) fun c hc =>
    hfolder' ▸ hids c (List.mem_append_right _ hc)

theorem restart_invisible_of_two_sessions :
    ∃ s₀ s', start ⟨⟨"store"⟩⟩ 4 1 { Disk.ofHome ["home"] with limit := none } = .ok s₀ ∧
      start ⟨⟨"store"⟩⟩ 4 1 (SessionStore.destroy (SessionStore.run s₀
        [.store "a" 1 [1, 2], .store "b" 1 [9], .store "a" 2 [3, 4, 5]])).files.disk = .ok s' ∧
      SessionStore.answers s' [.load "a" 2, .load "b" 1] =
        SessionStore.answers (SessionStore.run s₀
          [.store "a" 1 [1, 2], .store "b" 1 [9], .store "a" 2 [3, 4, 5]])
          [.load "a" 2, .load "b" 1] := by
  have hdisk : Disk.OffersEmpty { Disk.ofHome ["home"] with limit := none } ⟨"store"⟩
      ["home", "store"] := ⟨⟨fun _ => rfl, rfl⟩, rfl, rfl⟩
  obtain ⟨s₀, s, hstart, hs, hfits, hrestart⟩ := restart_invisible ⟨⟨"store"⟩⟩ 4 1 .empty .empty
    [.store "a" 1 [1, 2], .store "b" 1 [9], .store "a" 2 [3, 4, 5]] [.load "a" 2, .load "b" 1]
    hdisk (by decide) (by decide) (by decide) (by decide)
  obtain ⟨s', hstart', -, -, hanswers⟩ := hrestart (hfits (by decide))
  rw [hs] at hstart' hanswers
  exact ⟨s₀, s', hstart, hstart', hanswers⟩

end DiskStore

end StatefulPages
