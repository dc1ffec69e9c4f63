import StatefulPages.Inspect.Store
import StatefulPages.Proofs.Storage.Lifetimes

/-!
# Dumps of pages

The inspection tool reads a page without a store: it looks for the window in the index and reads the
bytes from the data file. What it finds where a store was stopped is what the store would have read
last.

* `findWindow_of_mem`, `findWindow_of_forall_ne`: the window that the index has for a page;
* `readWindow_of_file`: the first bytes of a window;
* `InOrder.readPage`: the tool reads the pages of a store that was stopped;
* `dumpPage_eq_load`: it dumps what the store would have read, or the first bytes of it.
-/

namespace StatefulPages

namespace Inspect

variable {d : Disk} {place : Location} {folder : StoreFolder} {index : StoreIndex} {id : SessionId}
  {r : SessionRecord}

/-! ## The index -/

theorem readIndex_of_file {n : Nat} (hrooted : d.Rooted folder.root place)
    (hbelow : Path.Below folder.root folder.indexFile [StoreFolder.indexName])
    (hfile : d.get? (place ++ [StoreFolder.indexName]) = some (.file n))
    (hparse : StoreIndex.parse (d.contents.get n).toList = .ok index) :
    readIndex folder d = .ok index := by
  have hplace : place ++ [] = place := List.append_nil place
  have hlookup := Disk.lookup_of_file [] hrooted hbelow (hplace.symm ▸ hrooted.isFolderAt)
    (hplace.symm ▸ hfile)
  rw [readIndex, Disk.readAll_of_file hrooted.sound hlookup]
  simp only [blame, hparse]

theorem readIndex_of_not_isThere (hsound : d.Sound) (h : d.isThere folder.indexFile = false) :
    ∃ p, readIndex folder d = .error p := by
  cases hlookup : d.lookup folder.indexFile with
  | ok found =>
    rw [Disk.isThere, hlookup] at h
    cases h
  | error e =>
    rw [readIndex, Disk.readAll, Disk.call_of_sound hsound, Disk.lookup_tick, hlookup]
    exact ⟨_, rfl⟩

theorem findWindow_of_forall_ne (h : ∀ r ∈ index.sessions, r.id ≠ id) (page : PageId) :
    ∃ p, findWindow index id page = .error p := by
  have hnone : index.sessions.find? (·.id = id) = none := by
    rw [List.find?_eq_none]
    intro r hr
    simpa using h r hr
  rw [findWindow, hnone]
  exact ⟨_, rfl⟩

/-- The windows of a session are those of its record. -/
theorem findWindow_of_mem (hnodup : (index.sessions.map (·.id)).Nodup) (hr : r ∈ index.sessions)
    (hid : r.id = id) (page : PageId) :
    match r.windows.find? (·.page = page) with
    | some w => findWindow index id page = .ok w
    | none => ∃ p, findWindow index id page = .error p := by
  have hfound : index.sessions.find? (·.id = id) = some r := hid ▸ Keyed.find?_of_mem hnodup hr
  cases hw : r.windows.find? (·.page = page) with
  | some w => simp only [findWindow, hfound, hw]
  | none => simp only [findWindow, hfound, hw, Except.error.injEq, exists_eq']

/-! ## The data file -/

/-- The first bytes of a window are read from a file that has them. -/
theorem readWindow_of_file {file : Path} {found : Location} {n k : Nat} {w : WindowRecord}
    (hsound : d.Sound) (hlookup : d.lookup file = .ok (found, .file n))
    (hstop : w.offset.toNat + k ≤ (d.contents.get n).size) :
    readWindow file w k d = .ok ((d.contents.get n).slice w.offset.toNat k) := by
  have hread : (d.readAt n w.offset.toNat k).1 = .ok ((d.contents.get n).slice w.offset.toNat k) := by
    by_cases hk : k = 0
    · rw [Disk.readAt, if_pos hk, hk]
      rfl
    · rw [Disk.readAt_of_sound n _ hsound hk hstop]
  rw [readWindow, hlookup]
  simp only [blame, Disk.not_exceeds hsound, readTree, hread, Bool.false_eq_true, ↓reduceIte]

theorem readPage_of_readWindow {w : WindowRecord} {page : PageId} {length : Option UInt32}
    {data : List UInt8} (hindex : readIndex folder d = .ok index)
    (hwindow : findWindow index id page = .ok w)
    (hdata : readWindow (dataFile folder id) w
      (length.elim w.size.toNat fun n => min n.toNat w.size.toNat) d = .ok data) :
    readPage folder id page length d = .ok (w, data) := by
  simp only [readPage, hindex, hwindow, hdata]
  rfl

theorem readPage_of_noWindow {page : PageId} (hindex : readIndex folder d = .ok index)
    (hwindow : ∃ p, findWindow index id page = .error p) (length : Option UInt32) :
    ∃ p, readPage folder id page length d = .error p := by
  obtain ⟨p, hp⟩ := hwindow
  exact ⟨p, by simp only [readPage, hindex, hp]⟩

end Inspect

/-- The record of a window whose numbers fit into the fields. -/
def WindowRecord.ofWindow (w : Window) : WindowRecord where
  page := w.page
  size := UInt32.ofNat w.size
  offset := UInt64.ofNat w.offset

/-- The window of a page, as the record of its session has it. -/
theorem SessionRecord.find?_windows_ofLayout (id : String) (l : Layout) (page : PageId) :
    (ofLayout id l).windows.find? (·.page = page) =
      (l.windows.find? (·.page = page)).map .ofWindow := by
  rw [ofLayout, List.find?_map]
  rfl

namespace DiskStore

variable {s : DiskStore} {place : Location} {ids : List SessionId} {id : SessionId}
  {folder : StoreFolder} {disk : Disk}

/-! ## Stores that were stopped -/

/-- The index that was left has the sessions of the store. There is none if there are none. -/
theorem InOrder.readIndex (h : s.InOrder ids place)
    (hindex : ∀ id ∈ ids, StoreFolder.folderName id ≠ StoreFolder.indexName)
    (hpath : Disk.badPath? s.folder.indexFile = none) (hfits : s.FitsIndex) :
    if s.index.sessions = [] then
      ∃ p, Inspect.readIndex s.folder s.destroy.files.disk = .error p
    else Inspect.readIndex s.folder s.destroy.files.disk = .ok s.index := by
  split
  · rename_i hempty
    rw [disk_destroy_of_noSessions hempty]
    refine Inspect.readIndex_of_not_isThere h.rooted.sound ?_
    exact Disk.isThere_of_none h.rooted (by decide) (by decide) (h.noIndex hindex)
  · rename_i hsome
    have hbelow := StoreFolder.below_indexFile hpath
    obtain ⟨n, hc, hfile, hparse⟩ := destroy_of_sessions h hbelow (h.noIndex hindex) hsome hfits
    exact Inspect.readIndex_of_file (hc.rooted _ h.rooted) hbelow hfile hparse

/-- Stopping a store leaves the data files alone. -/
theorem InOrder.changes_destroy (h : s.InOrder ids place)
    (hindex : ∀ id ∈ ids, StoreFolder.folderName id ≠ StoreFolder.indexName)
    (hpath : Disk.badPath? s.folder.indexFile = none) (hfits : s.FitsIndex) :
    Disk.ChangesIn place StoreFolder.indexName s.files.disk s.destroy.files.disk := by
  by_cases hempty : s.index.sessions = []
  · rw [disk_destroy_of_noSessions hempty]
    exact .refl ..
  · obtain ⟨n, hc, -, -⟩ :=
      destroy_of_sessions h (StoreFolder.below_indexFile hpath) (h.noIndex hindex) hempty hfits
    exact hc

/-- The first bytes of a window are found in the data file of a store that was stopped. -/
theorem InOrder.readWindow (h : s.InOrder ids place)
    (hindex : ∀ id ∈ ids, StoreFolder.folderName id ≠ StoreFolder.indexName)
    (hpath : Disk.badPath? s.folder.indexFile = none) (hfits : s.FitsIndex) {e : Session}
    (he : s.object? id = some e) {w : Window} (hw : w ∈ e.table.windows) {r : WindowRecord}
    (hoffset : r.offset.toNat = w.offset) {k : Nat} (hk : k ≤ w.size) :
    Inspect.readWindow (Inspect.dataFile s.folder id) r k s.destroy.files.disk =
      .ok ((s.files.disk.contentAt (dataPlace place (StoreFolder.folderName id))).slice w.offset
        k) := by
  have hc := h.changes_destroy hindex hpath hfits
  have hrooted := hc.rooted _ h.rooted
  have hname := hindex id (h.known id e he)
  -- The session is settled on the disk that was left, with the bytes it had.
  let left : Files := { s.files with disk := s.destroy.files.disk }
  have hleft : Disk.ChangesIn place StoreFolder.indexName s.files.disk left.disk := hc
  obtain ⟨hfor, -⟩ := h.frame he hleft hname fun _ _ hq _ => hq
  have hsame : s.destroy.files.disk.contentAt (dataPlace place (StoreFolder.folderName id)) =
      s.files.disk.contentAt (dataPlace place (StoreFolder.folderName id)) := by
    rw [dataPlace_eq]
    exact Disk.contentAt_changesIn h.separate hc hname _
  obtain ⟨n, hn⟩ := hfor.settled.exists_file hw
  have hcontent := hsame.symm.trans (Disk.contentAt_of_file hn)
  have hlookup := Disk.lookup_of_file [StoreFolder.folderName id] hrooted hfor.below_dataFile
    (hfor.settled.data_ne hn) hn
  have hstop := hfor.settled.stop_le w hw
  rw [Window.stop] at hstop
  rw [hcontent, ← hoffset]
  refine Inspect.readWindow_of_file hrooted.sound hlookup ?_
  have hsize := congrArg Content.size (Disk.contentAt_of_file hn)
  rw [hoffset, ← hsize]
  exact Nat.le_trans (Nat.add_le_add_left hk _) hstop

theorem load_toAged_of_none (he : s.object? id = none) (page : PageId) :
    (s.toAged place).load id page = none := by
  have hpages : (s.toAged place).pages id = [] := congrArg (pagesFrom place id · s.files.disk) he
  rw [AgedStore.load, hpages]
  rfl

theorem load_toAged_of_some {e : Session} (he : s.object? id = some e) (page : PageId) :
    (s.toAged place).load id page = (e.table.windows.find? (·.page = page)).map fun w =>
      (s.files.disk.contentAt (dataPlace place (StoreFolder.folderName id))).slice w.offset
        w.size := by
  have hpages : (s.toAged place).pages id = e.pagesOn place (StoreFolder.folderName id)
      s.files.disk := congrArg (pagesFrom place id · s.files.disk) he
  rw [AgedStore.load, hpages, Session.pagesOn, Session.find?_pagesIn, WindowTable.find?]

/-- From the files of a store that was stopped the tool reads what its pages were, up to the length
that is asked for. -/
theorem InOrder.readPage (h : s.InOrder ids place)
    (hindex : ∀ id ∈ ids, StoreFolder.folderName id ≠ StoreFolder.indexName)
    (hpath : Disk.badPath? s.folder.indexFile = none) (hfits : s.FitsIndex) (id : SessionId)
    (page : PageId) (length : Option UInt32) :
    match (s.toAged place).load id page with
    | some data => ∃ w, w.page = page ∧ w.size.toNat = data.length ∧
        Inspect.readPage s.folder id page length s.destroy.files.disk =
          .ok (w, data.take (length.elim data.length UInt32.toNat))
    | none => ∃ p, Inspect.readPage s.folder id page length s.destroy.files.disk = .error p := by
  have hread := h.readIndex hindex hpath hfits
  cases he : s.object? id with
  | none =>
    rw [load_toAged_of_none he]
    split at hread
    · obtain ⟨p, hp⟩ := hread
      exact ⟨p, by rw [Inspect.readPage, hp]⟩
    · have hother : ∀ r ∈ s.index.sessions, r.id ≠ id := fun r hr => ne_of_mem_index h he hr
      exact Inspect.readPage_of_noWindow hread (Inspect.findWindow_of_forall_ne hother page) length
  | some e =>
    have hfor := h.isFor id e he
    have hmem := (mem_index h).2 ⟨id, e, he, rfl⟩
    rw [if_neg (List.ne_nil_of_mem hmem)] at hread
    have hfound := Inspect.findWindow_of_mem (nodup_index h) hmem rfl page
    rw [SessionRecord.find?_windows_ofLayout] at hfound
    rw [load_toAged_of_some he]
    cases hw : e.table.windows.find? (·.page = page) with
    | none =>
      rw [hw] at hfound
      exact Inspect.readPage_of_noWindow hread hfound length
    | some w =>
      rw [hw] at hfound
      have hwindow : w ∈ e.table.windows := List.mem_of_find?_eq_some hw
      have hpage : w.page = page := by simpa using List.find?_some hw
      obtain ⟨hsize, hoffset⟩ := (hfor.settled.wellKept.fits hfor.settled.window_size
        (hfits.fileEnd_lt e (mem_live h.distinct he))).window_lt w hwindow
      have hsize' : (WindowRecord.ofWindow w).size.toNat = w.size := UInt32.toNat_ofNat_of_lt' hsize
      have hlength : (length.elim w.size fun n => min n.toNat w.size) ≤ w.size := by
        cases length with
        | none => exact Nat.le_refl _
        | some n => exact Nat.min_le_right ..
      have hdata := h.readWindow hindex hpath hfits he hwindow (r := .ofWindow w)
        (UInt64.toNat_ofNat_of_lt' hoffset) hlength
      refine ⟨.ofWindow w, hpage, hsize'.trans (Content.length_slice ..).symm, ?_⟩
      refine Inspect.readPage_of_readWindow hread hfound ?_
      rw [hsize', hdata, Content.length_slice, Content.take_slice]
      cases length with
      | none => rw [Option.elim_none, Option.elim_none, Nat.min_self]
      | some n => rfl

/-- The tool dumps what the store would read. Whatever was done with stores in a folder that was empty
once, and whichever session and page are asked for: a store leaves files from which its page is dumped, or
the first bytes of the page if there is a length; and there is no dump if the store has no such page. Its
counts have to be within the limits of the index, as they are after fewer than 2³² calls. -/
theorem dumpPage_eq_load {budget n : Nat} (hdisk : disk.OffersEmpty folder.root place)
    (hpath : Disk.badPath? folder.indexFile = none) (hown : folder.OwnFolders ids)
    (hindex : ∀ id ∈ ids, folder.sessionFolder id ≠ folder.indexFile)
    (h : Lived folder budget ids disk n s) :
    (n < Text.wordCount → s.FitsIndex) ∧
    (s.FitsIndex → ∀ id page length, match (SessionStore.load s id page).1 with
      | some data => ∃ offset,
        Inspect.dumpPage folder id page length (SessionStore.destroy s).files.disk =
          .ok (("page " ++ Inspect.decimalText page.toNat ++ " : offset " ++
            Inspect.hexText 1 offset ++ ", size " ++ Inspect.hexText 1 data.length) ::
            Text.hexDump (data.take (length.elim data.length UInt32.toNat)))
      | none => ∃ p,
        Inspect.dumpPage folder id page length (SessionStore.destroy s).files.disk = .error p) := by
  have hname : ∀ id ∈ ids, StoreFolder.folderName id ≠ StoreFolder.indexName := fun id hid heq =>
    hindex id hid (congrArg folder.root.join heq)
  obtain ⟨horder, hfolder, -, hbounded⟩ := h.inOrder hdisk hpath hown hname
  refine ⟨fun hn => horder.fitsIndex hbounded hn hn, fun hfits id page length => ?_⟩
  obtain ⟨s', hload, -⟩ := horder.load (hfolder ▸ hown) id page
  have hread := horder.readPage hname (hfolder ▸ hpath) hfits id page length
  have hanswer : (SessionStore.load s id page).1 = (s.toAged place).load id page :=
    congrArg Prod.fst hload
  rw [hfolder] at hread
  rw [hanswer]
  cases hdata : (s.toAged place).load id page with
  | some data =>
    rw [hdata] at hread
    obtain ⟨w, hpage, hsize, hread⟩ := hread
    refine ⟨w.offset.toNat, (congrArg (Except.map _) hread).trans ?_⟩
    simp only [Except.map, hpage, hsize]
  | none =>
    rw [hdata] at hread
    obtain ⟨p, hread⟩ := hread
    exact ⟨p, congrArg (Except.map _) hread⟩

/-- A page of a store that was started again is dumped, and one that was not stored is not. -/
theorem dumpPage_eq_load_of_restart :
    let disk := { Disk.ofHome ["home"] with limit := none }
    let calls : List SessionStore.Call := [.store "a" 1 [1, 2, 3], .store "b" 7 [9]]
    ∃ s₀ s, start ⟨⟨"store"⟩⟩ 4 1 disk = .ok s₀ ∧
      start ⟨⟨"store"⟩⟩ 4 1 (SessionStore.destroy (SessionStore.run s₀ calls)).files.disk = .ok s ∧
      (∃ offset, Inspect.dumpPage ⟨⟨"store"⟩⟩ "a" 1 (some 2) (SessionStore.destroy s).files.disk =
        .ok (("page " ++ Inspect.decimalText 1 ++ " : offset " ++ Inspect.hexText 1 offset ++
          ", size " ++ Inspect.hexText 1 3) :: Text.hexDump [1, 2])) ∧
      ∃ p, Inspect.dumpPage ⟨⟨"store"⟩⟩ "b" 1 none (SessionStore.destroy s).files.disk =
        .error p := by
  intro disk calls
  have hdisk : disk.OffersEmpty (StoreFolder.mk ⟨"store"⟩).root ["home", "store"] :=
    ⟨⟨fun _ => rfl, rfl⟩, rfl, rfl⟩
  obtain ⟨s₀, hstart₀, -⟩ := start_of_offersEmpty hdisk ["a", "b"] 4 1 .empty
  have hlived : Lived ⟨⟨"store"⟩⟩ 4 ["a", "b"] disk 2 (SessionStore.run s₀ calls) :=
    ((Lived.start hstart₀).call (.store "a" 1 [1, 2, 3]) (by decide) (by decide)).call
      (.store "b" 7 [9]) (by decide) (by decide)
  obtain ⟨hfits, -⟩ := dumpPage_eq_load hdisk (by decide) (by decide) (by decide) hlived
  obtain ⟨horder, hfolder, hbudget, -⟩ := hlived.inOrder hdisk (by decide) (by decide) (by decide)
  obtain ⟨s, hstart, horder', hfolder', haged, -⟩ := horder.restart (by decide)
    (hfolder ▸ by decide) (hfits (by decide)) 1 .empty
  rw [hfolder, hbudget] at hstart
  obtain ⟨hfits', hdump⟩ := dumpPage_eq_load hdisk (by decide) (by decide) (by decide)
    (hlived.restart (hfits (by decide)) hstart)
  have hsame : ∀ id page, (SessionStore.load s id page).1 =
      (SessionStore.load (SessionStore.run s₀ calls) id page).1 := by
    intro id page
    obtain ⟨_, hload, -⟩ := horder.load (hfolder ▸ by decide) id page
    obtain ⟨_, hload', -⟩ := horder'.load (hfolder' ▸ hfolder ▸ by decide) id page
    rw [haged] at hload'
    exact (congrArg Prod.fst hload').trans (congrArg Prod.fst hload).symm
  have hpages : (start ⟨⟨"store"⟩⟩ 4 1 disk).toOption.map (fun s₀ =>
      ((SessionStore.load (SessionStore.run s₀ calls) "a" 1).1,
        (SessionStore.load (SessionStore.run s₀ calls) "b" 1).1)) = some (some [1, 2, 3], none) := by
    decide +kernel
  rw [hstart₀] at hpages
  obtain ⟨hfirst, hsecond⟩ := Prod.mk.inj (Option.some.inj hpages)
  have hfound := hdump (hfits' (by decide)) "a" 1 (some 2)
  have hmissing := hdump (hfits' (by decide)) "b" 1 none
  rw [hsame, hfirst] at hfound
  rw [hsame, hsecond] at hmissing
  exact ⟨s₀, s, hstart₀, hstart, hfound, hmissing⟩

end DiskStore

end StatefulPages
