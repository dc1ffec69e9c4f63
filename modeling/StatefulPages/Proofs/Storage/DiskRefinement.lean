import StatefulPages.Proofs.Storage.StoreSessions

/-!
# A store on disk answers like an aged store

A store that starts in an empty folder is in order, and stays so whatever it is called to do
(`InOrder.run`). Since each call does to its pages what it does to those of an aged store, both give
the same answers (`answers_eq_aged`).
-/

namespace StatefulPages

/-- Indicates a sound disk on which a folder can be made, and is found empty at `place` then. -/
structure Disk.OffersEmpty (d : Disk) (root : Path) (place : Location) : Prop where
  sound : d.Sound
  made : (d.createFolders root).1 = .ok ()
  empty : (d.createFolders root).2.lookup root = .ok (place, .folder {})

namespace DiskStore

open SessionStore (Call answers)

variable {s : DiskStore} {place : Location} {ids : List SessionId} {folder : StoreFolder}
  {budget capacity : Nat} {disk : Disk} {objects : Heap Session} {calls : List Call}

/-- A store without sessions is in order if nothing is in its folder. -/
theorem inOrder_of_isEmpty (hrooted : disk.Rooted folder.root place)
    (hempty : ∀ name rest, disk.get? (place ++ name :: rest) = none) (ids : List SessionId)
    (budget capacity : Nat) (objects : Heap Session) :
    InOrder ids place
      { folder, budget, files := { pool := .ofCapacity capacity, disk }, objects } where
  rooted := hrooted
  separate := by
    constructor
    · intro name rest n hn
      rw [hempty] at hn
      cases hn
    · intro name other rest rest' n hn
      rw [hempty] at hn
      cases hn
  distinct := distinct_of_noSessions _ rfl
  known := fun id e h => nomatch h
  isFor := fun id e h => nomatch h
  exists_object := fun name h => absurd (hempty name []) h
  pooled := fun q n h => absurd h (FilePool.not_has_ofCapacity capacity)

/-- A store starts in an empty folder without sessions. -/
theorem start_of_offersEmpty (h : disk.OffersEmpty folder.root place) (ids : List SessionId)
    (budget capacity : Nat) (objects : Heap Session) :
    ∃ s, start folder budget capacity disk objects = .ok s ∧ s.InOrder ids place ∧
      s.folder = folder ∧ s.sessions = {} ∧ s.toAged place = { budget } := by
  have hrooted := Disk.rooted_of_createFolders h.sound h.made h.empty
  have hnothing : ∀ name rest,
      (disk.createFolders folder.root).2.get? (place ++ name :: rest) = none := by
    intro name rest
    rw [Disk.get?_append, Disk.get?_of_lookup h.empty]
    exact Tree.get?_none rest
  have hnoIndex : (disk.createFolders folder.root).2.isThere folder.indexFile = false :=
    Disk.isThere_of_none hrooted (by decide) (by decide) (hnothing _ [])
  have hmade : disk.createFolders folder.root =
      (.ok (), (disk.createFolders folder.root).2) := Prod.ext h.made rfl
  refine ⟨_, ?_, inOrder_of_isEmpty hrooted hnothing ids budget capacity objects, rfl, rfl,
    rfl⟩
  · rw [start, hmade]
    dsimp only
    rw [loadIndex, hnoIndex]
    rfl

/-- A store stays in order. -/
theorem InOrder.run (h : s.InOrder ids place) (hown : s.folder.OwnFolders ids)
    (hcalls : ∀ c ∈ calls, c.session ∈ ids ∧ c.IsAdmitted s.folder) :
    (SessionStore.run s calls).InOrder ids place ∧
      (SessionStore.run s calls).folder = s.folder ∧
      (SessionStore.run s calls).budget = s.budget := by
  induction calls generalizing s with
  | nil => exact ⟨h, rfl, rfl⟩
  | cons c calls ih =>
    obtain ⟨hid, hadmitted⟩ := hcalls c (by simp)
    obtain ⟨-, haged, hkept, hfolder⟩ := h.call hown hid hadmitted
    have hbudget : (SessionStore.call s c).2.budget = s.budget := by
      refine (congrArg AgedStore.budget haged).trans ?_
      split
      · exact AgedStore.budget_call ..
      · rfl
    rw [← hfolder] at hown hcalls
    rw [← hfolder, ← hbudget]
    exact ih hkept hown fun c hc => hcalls c (List.mem_cons_of_mem _ hc)

/-- A store in order gives the answers that an aged store with its pages gives. -/
theorem InOrder.answers (h : s.InOrder ids place) (hown : s.folder.OwnFolders ids)
    (hcalls : ∀ c ∈ calls, c.session ∈ ids ∧ c.IsAdmitted s.folder)
    (hsmall : ∀ c ∈ calls, c.isSmall) :
    SessionStore.answers s calls = SessionStore.answers (s.toAged place) calls := by
  induction calls generalizing s with
  | nil => rfl
  | cons c calls ih =>
    obtain ⟨hid, hadmitted⟩ := hcalls c (by simp)
    obtain ⟨hanswer, haged, hkept, hfolder⟩ := h.call hown hid hadmitted
    rw [if_pos (hsmall c (by simp))] at haged
    rw [← hfolder] at hown hcalls
    rw [SessionStore.answers, SessionStore.answers, hanswer, ← haged,
      ih hkept hown (fun c hc => hcalls c (List.mem_cons_of_mem _ hc))
        fun c hc => hsmall c (List.mem_cons_of_mem _ hc)]

/-- A store on disk that starts in an empty folder answers any calls as an aged store does, if the
sessions have folders of their own and no page has 4 GiB or more. -/
theorem answers_eq_aged (folder : StoreFolder) (budget capacity : Nat) (objects : Heap Session)
    (calls : List Call) (hdisk : disk.OffersEmpty folder.root place)
    (hown : folder.OwnFolders (calls.map Call.session))
    (hadmitted : ∀ c ∈ calls, c.IsAdmitted folder) (hsmall : ∀ c ∈ calls, c.isSmall) :
    ∃ s, start folder budget capacity disk objects = .ok s ∧
      SessionStore.answers s calls = SessionStore.answers ({ budget } : AgedStore) calls := by
  obtain ⟨s, hstart, horder, hfolder, -, haged⟩ := start_of_offersEmpty hdisk
    (calls.map Call.session) budget capacity objects
  refine ⟨s, hstart, ?_⟩
  rw [← haged]
  refine horder.answers (hfolder ▸ hown) (fun c hc => ⟨?_, ?_⟩) hsmall
  · exact List.mem_map_of_mem hc
  · rw [hfolder]
    exact hadmitted c hc

theorem answers_eq_aged_of_two_sessions :
    ∃ s, start ⟨⟨"store"⟩⟩ 4 1 { Disk.ofHome ["home"] with limit := none } = .ok s ∧
      SessionStore.answers s [.store "a" 1 [1, 2], .store "b" 1 [9], .store "a" 2 [3, 4, 5],
        .load "a" 1, .load "a" 2, .load "b" 1] = [none, some [3, 4, 5], some [9]] := by
  have hdisk : Disk.OffersEmpty { Disk.ofHome ["home"] with limit := none } ⟨"store"⟩
      ["home", "store"] := ⟨⟨fun _ => rfl, rfl⟩, rfl, rfl⟩
  obtain ⟨s, hstart, hanswers⟩ := answers_eq_aged ⟨⟨"store"⟩⟩ 4 1 .empty
    [.store "a" 1 [1, 2], .store "b" 1 [9], .store "a" 2 [3, 4, 5], .load "a" 1, .load "a" 2,
      .load "b" 1] hdisk (by decide) (by decide) (by decide)
  exact ⟨s, hstart, hanswers.trans (by decide)⟩

end DiskStore

end StatefulPages
