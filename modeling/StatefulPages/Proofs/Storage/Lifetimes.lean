import StatefulPages.Proofs.Storage.Restart

/-!
# Stores that were stopped and started

A store may have sessions of stores before it: it was started where one of them was stopped, which
was started where another one was, and so on to one that began in an empty folder. `DiskStore.Lived`
are the stores that come of this and of calls. They are in order, and no larger than their calls have
made them (`Lived.inOrder`).
-/

namespace StatefulPages

namespace DiskStore

open SessionStore (Call)

/-- Indicates a store that comes of stores that were called, stopped and started again in a folder,
of which the first began in the folder when it was empty, and how many calls were made in all. Each
was stopped when its numbers did fit into the index. -/
inductive Lived (folder : StoreFolder) (budget : Nat) (ids : List SessionId) (disk : Disk) :
    Nat → DiskStore → Prop where
  | start {capacity : Nat} {objects : Heap Session} {s : DiskStore}
      (hstart : start folder budget capacity disk objects = .ok s) :
      Lived folder budget ids disk 0 s
  | call {n : Nat} {s : DiskStore} (h : Lived folder budget ids disk n s) (c : Call)
      (hid : c.session ∈ ids) (hadmitted : c.IsAdmitted folder) :
      Lived folder budget ids disk (n + 1) (SessionStore.call s c).2
  | restart {n capacity : Nat} {objects : Heap Session} {s s' : DiskStore}
      (h : Lived folder budget ids disk n s) (hfits : s.FitsIndex)
      (hstart : DiskStore.start folder budget capacity (SessionStore.destroy s).files.disk objects =
        .ok s') : Lived folder budget ids disk n s'

variable {folder : StoreFolder} {budget n : Nat} {ids : List SessionId} {disk : Disk}
  {place : Location} {s s' : DiskStore}

theorem mem_names_iff (h : s.Distinct) {id : SessionId} :
    id ∈ s.sessions.names ↔ ∃ e, s.object? id = some e := by
  rw [Keyed.mem_names_iff h.names_nodup]
  constructor
  · intro ⟨ref, href⟩
    exact ⟨_, object?_of_some href⟩
  · intro ⟨e, he⟩
    obtain ⟨ref, href, -⟩ := Option.map_eq_some_iff.1 he
    exact ⟨ref, href⟩

/-- Stores with the same sessions have as many. -/
theorem size_eq_of_object?_eq (h : s.Distinct) (h' : s'.Distinct)
    (heq : ∀ id, s'.object? id = s.object? id) : s'.sessions.size = s.sessions.size := by
  have hperm : s'.sessions.names.Perm s.sessions.names := by
    rw [List.perm_ext_iff_of_nodup h'.names_nodup h.names_nodup]
    intro id
    rw [mem_names_iff h', mem_names_iff h, heq]
  have hlength := hperm.length_eq
  rwa [Keyed.names, Keyed.names, List.length_map, List.length_map] at hlength

/-- A store that has lived is in order, and its calls bound its size. -/
theorem Lived.inOrder (h : Lived folder budget ids disk n s)
    (hdisk : disk.OffersEmpty folder.root place) (hpath : Disk.badPath? folder.indexFile = none)
    (hown : folder.OwnFolders ids)
    (hindex : ∀ id ∈ ids, StoreFolder.folderName id ≠ StoreFolder.indexName) :
    s.InOrder ids place ∧ s.folder = folder ∧ s.budget = budget ∧ s.Bounded n n := by
  induction h with
  | start hstart =>
    rename_i capacity objects s
    obtain ⟨s₀, hstart₀, horder, hfolder, hsessions, haged⟩ :=
      start_of_offersEmpty hdisk ids budget capacity objects
    obtain rfl : s₀ = s := Except.ok.inj (hstart₀.symm.trans hstart)
    exact ⟨horder, hfolder, congrArg AgedStore.budget haged, bounded_of_noSessions hsessions⟩
  | call h c hid hadmitted ih =>
    obtain ⟨horder, hfolder, hbudget, hbounded⟩ := ih
    have hcalls : ∀ c' ∈ [c], c'.session ∈ ids ∧ c'.IsAdmitted folder :=
      List.forall_mem_singleton.2 ⟨hid, hadmitted⟩
    obtain ⟨hkept, hfolder', hbudget'⟩ := horder.run (hfolder ▸ hown) (hfolder ▸ hcalls)
    exact ⟨hkept, hfolder'.trans hfolder, hbudget'.trans hbudget, hbounded.call horder.distinct c⟩
  | restart h hfits hstart ih =>
    rename_i n capacity objects s s'
    obtain ⟨horder, hfolder, hbudget, hbounded⟩ := ih
    obtain ⟨t, hstart', horder', hfolder', haged, hentry, -⟩ :=
      horder.restart hindex (hfolder ▸ hpath) hfits capacity objects
    rw [hfolder, hbudget] at hstart'
    obtain rfl : t = s' := Except.ok.inj (hstart'.symm.trans hstart)
    refine ⟨horder', hfolder'.trans hfolder, (congrArg AgedStore.budget haged).trans hbudget, ?_, ?_⟩
    · rw [size_eq_of_object?_eq horder.distinct horder'.distinct hentry]
      exact hbounded.size_le
    · intro id e he
      exact hbounded.table id e (hentry id ▸ he)

end DiskStore

end StatefulPages
