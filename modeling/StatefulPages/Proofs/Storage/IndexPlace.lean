import StatefulPages.Proofs.Storage.Restart

/-!
# The place of the index

The folder of a session lies directly in that of the store, whatever the session id is
(`StoreFolder.holdsSession`). One session has its folder in the place of the index: the one with its
name (`StoreFolder.isSame_indexFile_iff`).

* `start_destroy_of_isFolder`: a folder in the place of the index keeps a store from writing it, and
  the next one from having sessions;
* `InOrder.restart_of_none`: without a session of that name, the next store has all sessions;
* `InOrder.ready_run`: sessions have their folders, if no page was too large;
* `restart_keeps_unless_named_index`: so it depends on one session what becomes of all.
-/

namespace StatefulPages

namespace StoreFolder

variable {f : StoreFolder} {session : SessionId}

theorem plainChar_eq (c : Char) : plainChar c = c ∨ plainChar c = '_' := by
  unfold plainChar
  split
  · exact .inr rfl
  · exact .inl rfl

theorem plainChar_ne_backslash (c : Char) : plainChar c ≠ '\\' := by
  unfold plainChar
  split
  · decide
  · rename_i h
    simp only [not_or] at h
    exact h.2.2.1

theorem backslash_notMem_folderName (session : SessionId) : '\\' ∉ (folderName session).toList := by
  rw [folderName, String.toList_ofList]
  split
  · simp
  · simp [plainChar_ne_backslash]

/-- Only a session with the name of the index has a folder with that name. -/
theorem folderName_eq_indexName_iff : folderName session = indexName ↔ session = indexName := by
  constructor
  · intro h
    have hchars := congrArg String.toList h
    rw [folderName, String.toList_ofList] at hchars
    -- No character was replaced, as there is no underscore.
    have hplain : session.toList.map plainChar = indexName.toList := by
      split at hchars
      · have hmem : '_' ∈ indexName.toList := hchars ▸ List.mem_replicate.2 ⟨by omega, rfl⟩
        exact absurd hmem (by decide)
      · exact hchars
    have hsame : ∀ c ∈ session.toList, plainChar c = id c := by
      intro c hc
      refine (plainChar_eq c).resolve_right fun hunderscore => ?_
      have hmem : '_' ∈ indexName.toList := hplain ▸ hunderscore ▸ List.mem_map_of_mem hc
      exact absurd hmem (by decide)
    rw [List.map_congr_left hsame, List.map_id] at hplain
    exact String.toList_inj.1 hplain
  · rintro rfl
    decide

/-- Indicates a folder of a session that lies directly in that of the store. -/
structure HoldsSession (f : StoreFolder) (session : SessionId) : Prop where
  isName : Path.IsName (folderName session)
  noBackslash : '\\' ∉ (folderName session).toList
  parts_eq : (f.sessionFolder session).parts = f.root.parts ++ [folderName session]

theorem holdsSession (f : StoreFolder) (session : SessionId) : f.HoldsSession session :=
  ⟨isName_folderName session, backslash_notMem_folderName session,
    Path.parts_join f.root (isName_folderName session)⟩

/-- Only the session with the name of the index has its folder in the place of the index. -/
theorem isSame_indexFile_iff :
    (f.sessionFolder session).isSame f.indexFile = true ↔ session = indexName := by
  constructor
  · intro h
    have hnames := (Path.isSame_iff.1 h).2.2
    rw [sessionFolder, indexFile, Path.names_join f.root (isName_folderName session),
      Path.names_join f.root (by decide)] at hnames
    exact folderName_eq_indexName_iff.1 (List.singleton_inj.1 (List.append_cancel_left hnames))
  · intro h
    rw [sessionFolder, folderName_eq_indexName_iff.2 h]
    exact Path.isSame_self _

end StoreFolder

namespace Session

variable {root : Path} {place : Location} {name : String} {e : Session} {files : Files}
  {data : List UInt8}

/-- The folder of a session is there once a page is stored. -/
theorem folderReady_save (h : e.Settled root place name files) (hr : files.disk.Rooted root place)
    (hdata : data ≠ []) (hsize : data.length < maxPageSize) (page : PageId) :
    (e.save page data files).1.folderReady = true := by
  obtain ⟨made, hprepare, -⟩ := prepare_of_settled h hr
  rw [save, if_neg (h.saves hdata hsize), hprepare]
  dsimp only
  split <;> rfl

theorem folderReady_remove (e : Session) (page : PageId) :
    (e.remove page).folderReady = e.folderReady := by
  rw [remove]
  split <;> rfl

end Session

namespace DiskStore

variable {s : DiskStore} {place : Location} {ids : List SessionId} {id : SessionId}
  {ref : SessionRef} {folder : StoreFolder} {disk : Disk}

/-! ## A folder in the place of the index -/

/-- Where there is a folder in the place of the index, a store starts without sessions. -/
theorem start_of_isFolder (h : disk.Rooted folder.root place)
    (hpath : Disk.badPath? folder.indexFile = none)
    (hfolder : disk.isFolder folder.indexFile = true) (budget capacity : Nat)
    (objects : Heap Session) :
    ∃ s, start folder budget capacity disk objects = .ok s ∧ s.sessions = {} := by
  have hroot : Disk.badPath? folder.root = none := Path.badPath?_of_join (by decide) hpath
  have hfolder' : disk.tick.isFolder folder.indexFile = true := by
    rw [Disk.isFolder_tick, hfolder]
  have hread := Disk.readAll_of_isFolder h.tick.sound hfolder'
  rw [start, Disk.createFolders_of_rooted h hroot]
  refine ⟨_, rfl, ?_⟩
  rw [loadIndex, if_pos (Disk.isThere_of_isFolder hfolder')]
  simp only [hread, Except.toOption, Option.map_none, restore]

/-- A folder in the place of the index keeps a store from writing it, and the next one from having
sessions. -/
theorem start_destroy_of_isFolder (h : s.files.disk.Rooted s.folder.root place)
    (hpath : Disk.badPath? s.folder.indexFile = none)
    (hfolder : s.files.disk.isFolder s.folder.indexFile = true) (budget capacity : Nat)
    (objects : Heap Session) :
    ∃ s', start s.folder budget capacity (SessionStore.destroy s).files.disk objects = .ok s' ∧
      s'.sessions = {} := by
  have hdisk : s.destroy.files.disk = s.files.disk ∨ s.destroy.files.disk = s.files.disk.tick := by
    rw [destroy, saveIndex]
    split
    · exact .inl rfl
    · split
      · rename_i bytes hbytes
        have hwrite := Disk.writeAll_of_isFolder h (StoreFolder.below_indexFile hpath) hfolder bytes
        exact .inr (congrArg Prod.snd hwrite)
      · exact .inl rfl
  have hfolder' := (Disk.isFolder_tick s.files.disk s.folder.indexFile).trans hfolder
  show ∃ s', start s.folder budget capacity s.destroy.files.disk objects = .ok s' ∧ _
  rcases hdisk with hdisk | hdisk
  · exact hdisk ▸ start_of_isFolder h hpath hfolder budget capacity objects
  · exact hdisk ▸ start_of_isFolder h.tick hpath hfolder' budget capacity objects

/-! ## The session with the name of the index -/

/-- A store that is in order is so for fewer ids, if its sessions are among them. -/
theorem InOrder.filter (h : s.InOrder ids place) (keep : SessionId → Bool)
    (hkeep : ∀ id e, s.object? id = some e → keep id = true) : s.InOrder (ids.filter keep) place :=
  { h with known := fun id e he => List.mem_filter.2 ⟨h.known id e he, hkeep id e he⟩ }

/-- Without a session with the name of the index, the next store has all sessions. -/
theorem InOrder.restart_of_none (h : s.InOrder ids place)
    (hnone : s.session? StoreFolder.indexName = none)
    (hpath : Disk.badPath? s.folder.indexFile = none) (hfits : s.FitsIndex) (capacity : Nat)
    (objects : Heap Session) :
    ∃ s', start s.folder s.budget capacity (SessionStore.destroy s).files.disk objects = .ok s' ∧
      ∀ id, s'.object? id = s.object? id := by
  have hkeep : ∀ id e, s.object? id = some e → decide (id ≠ StoreFolder.indexName) = true := by
    intro id e he
    refine decide_eq_true fun heq => ?_
    rw [heq, object?_of_none hnone] at he
    cases he
  have hindex : ∀ id ∈ ids.filter (· ≠ StoreFolder.indexName),
      StoreFolder.folderName id ≠ StoreFolder.indexName := by
    intro id hid heq
    exact of_decide_eq_true (List.mem_filter.1 hid).2 (StoreFolder.folderName_eq_indexName_iff.1 heq)
  obtain ⟨s', hstart, -, -, -, hentry, -⟩ :=
    (h.filter _ hkeep).restart hindex hpath hfits capacity objects
  exact ⟨s', hstart, hentry⟩

/-- The folder of a session that has one is in the place of the index if it has its name. -/
theorem InOrder.isFolder_indexFile (h : s.InOrder ids place)
    (hpath : Disk.badPath? s.folder.indexFile = none) {e : Session}
    (he : s.object? StoreFolder.indexName = some e) (hready : e.folderReady = true) :
    s.files.disk.isFolder s.folder.indexFile = true := by
  rw [Disk.isFolder_of_below h.rooted (StoreFolder.below_indexFile hpath)]
  have hsettled := (h.isFor _ e he).settled
  rw [StoreFolder.folderName_eq_indexName_iff.2 rfl] at hsettled
  exact hsettled.ready hready

/-! ## Sessions with their folders -/

/-- Indicates a store whose sessions all have their folders. -/
def Ready (s : DiskStore) : Prop :=
  ∀ id e, s.object? id = some e → e.folderReady = true

theorem object?_obtain (h : s.Distinct) {other : SessionId} (hne : other ≠ id) :
    (s.obtain id).2.object? other = s.object? other := by
  rw [obtain]
  split
  · rfl
  · exact (object?_addSession h _ other).trans (if_neg hne)

theorem ready_set (h : ∀ other e, other ≠ id → s.object? other = some e → e.folderReady = true)
    (hdistinct : s.Distinct) (hid : s.session? id = some ref) {e : Session}
    (he : e.folderReady = true) (files : Files) :
    Ready { s with objects := s.objects.set ref e, files } := by
  intro other e' hother
  rw [object?_set hdistinct hid] at hother
  split at hother
  · exact Option.some.inj hother ▸ he
  · exact h other e' (by assumption) hother

theorem InOrder.ready_store (h : s.InOrder ids place) (hready : s.Ready)
    (hown : s.folder.OwnFolders ids) (hid : id ∈ ids) {data : List UInt8}
    (hadmits : data ≠ [] → s.folder.Admits id) (hsmall : data.length < Session.maxPageSize)
    (page : PageId) : (s.store id page data).Ready := by
  rw [DiskStore.store]
  split
  · exact hready
  · rename_i hdata
    obtain ⟨ref, made, hobtain, hmade, hsession, -, -⟩ := h.obtain hown hid (hadmits hdata)
    have hothers : ∀ other e, other ≠ id → made.object? other = some e → e.folderReady = true := by
      intro other e hne he
      have hsame := object?_obtain h.distinct hne
      rw [hobtain] at hsame
      exact hready other e (hsame ▸ he)
    have hsettled := (hmade.isFor id _ (object?_of_some hsession)).settled
    rw [hobtain]
    exact ready_set hothers hmade.distinct hsession
      (Session.folderReady_save hsettled hmade.rooted hdata hsmall page) _

/-- A call leaves every session with its folder, unless it is to store a page that is too large. -/
theorem InOrder.ready_call (h : s.InOrder ids place) (hready : s.Ready)
    (hown : s.folder.OwnFolders ids) {c : SessionStore.Call} (hid : c.session ∈ ids)
    (hadmitted : c.IsAdmitted s.folder) (hsmall : c.isSmall) : (SessionStore.call s c).2.Ready := by
  cases c with
  | load id page =>
    show (s.load id page).2.Ready
    rw [DiskStore.load]
    split <;> exact hready
  | store id page data =>
    exact h.ready_store hready hown hid hadmitted (of_decide_eq_true hsmall) page
  | remove id page =>
    show (s.remove id page).Ready
    rw [DiskStore.remove]
    split
    · rename_i ref hsession
      have he := hready id _ (object?_of_some hsession)
      exact ready_set (fun other e _ => hready other e) h.distinct hsession
        ((Session.folderReady_remove _ page).trans he) s.files
    · exact hready
  | removeSession id =>
    show (s.removeSession id).Ready
    rw [DiskStore.removeSession]
    split
    · rename_i ref hsession
      intro other e hother
      refine hready other e ?_
      have herase := hother.symm.trans (object?_erase (s.unbind ref) id other)
      split at herase
      · cases herase
      · rename_i hne
        rw [unbind, object?_set h.distinct hsession, if_neg hne] at herase
        exact herase.symm
    · exact hready

/-- While no page is too large, every session has its folder. -/
theorem InOrder.ready_run {calls : List SessionStore.Call} (h : s.InOrder ids place)
    (hready : s.Ready) (hown : s.folder.OwnFolders ids)
    (hcalls : ∀ c ∈ calls, c.session ∈ ids ∧ c.IsAdmitted s.folder)
    (hsmall : ∀ c ∈ calls, c.isSmall) : (SessionStore.run s calls).Ready := by
  induction calls generalizing s with
  | nil => exact hready
  | cons c calls ih =>
    obtain ⟨hid, hadmitted⟩ := hcalls c (by simp)
    obtain ⟨-, -, hkept, hfolder⟩ := h.call hown hid hadmitted
    have hnext := h.ready_call hready hown hid hadmitted (hsmall c (by simp))
    rw [← hfolder] at hown hcalls
    exact ih hkept hnext hown (fun c hc => hcalls c (List.mem_cons_of_mem _ hc))
      fun c hc => hsmall c (List.mem_cons_of_mem _ hc)

/-! ## Restarts -/

/-- The folder of a session lies directly in that of the store, and only the session with the name of
the index has it in the place of the index. On that session it depends what becomes of a store that
began in an empty folder and was stopped: without it the next store has all sessions, and with it,
unless a page was too large, none. -/
theorem restart_keeps_unless_named_index (folder : StoreFolder) (budget capacity : Nat)
    (objects objects' : Heap Session) (calls : List SessionStore.Call)
    (hdisk : disk.OffersEmpty folder.root place)
    (hpath : Disk.badPath? folder.indexFile = none)
    (hown : folder.OwnFolders (calls.map SessionStore.Call.session))
    (hadmitted : ∀ c ∈ calls, c.IsAdmitted folder) :
    (∀ id, folder.HoldsSession id ∧
      ((folder.sessionFolder id).isSame folder.indexFile = true ↔ id = StoreFolder.indexName)) ∧
    ∃ s₀ s, start folder budget capacity disk objects = .ok s₀ ∧ s = SessionStore.run s₀ calls ∧
      (calls.length < Text.wordCount → s.FitsIndex) ∧
      (s.session? StoreFolder.indexName = none → s.FitsIndex → ∃ s',
        start folder budget capacity (SessionStore.destroy s).files.disk objects' = .ok s' ∧
          ∀ id, s'.object? id = s.object? id) ∧
      (s.session? StoreFolder.indexName ≠ none → (∀ c ∈ calls, c.isSmall) → ∃ s',
        start folder budget capacity (SessionStore.destroy s).files.disk objects' = .ok s' ∧
          s'.sessions = {}) := by
  refine ⟨fun id => ⟨folder.holdsSession id, StoreFolder.isSame_indexFile_iff⟩, ?_⟩
  have hids : ∀ c ∈ calls, c.session ∈ calls.map SessionStore.Call.session ∧ c.IsAdmitted folder :=
    fun c hc => ⟨List.mem_map_of_mem hc, hadmitted c hc⟩
  obtain ⟨s₀, hstart, horder, hfolder, hsessions, haged⟩ := start_of_offersEmpty hdisk
    (calls.map SessionStore.Call.session) budget capacity objects
  obtain ⟨hrun, hsame, hbudget⟩ := horder.run (hfolder ▸ hown) (hfolder ▸ hids)
  have hready₀ : s₀.Ready := by
    intro id e he
    rw [object?, session?, hsessions] at he
    cases he
  have hbounded := horder.bounded_run (bounded_of_noSessions hsessions) (hfolder ▸ hown)
    (hfolder ▸ hids)
  rw [Nat.zero_add] at hbounded
  have hfolder' := hsame.trans hfolder
  have hbudget' : (SessionStore.run s₀ calls).budget = budget :=
    hbudget.trans (congrArg AgedStore.budget haged)
  refine ⟨s₀, _, hstart, rfl, fun hfew => hrun.fitsIndex hbounded hfew hfew, fun hnone hfits => ?_,
    fun hsome hsmall => ?_⟩
  · obtain ⟨s', hstart', hentry⟩ :=
      hrun.restart_of_none hnone (hfolder' ▸ hpath) hfits capacity objects'
    rw [hfolder', hbudget'] at hstart'
    exact ⟨s', hstart', hentry⟩
  · obtain ⟨ref, href⟩ := Option.ne_none_iff_exists'.1 hsome
    have hready := horder.ready_run hready₀ (hfolder ▸ hown) (hfolder ▸ hids) hsmall
    have hentry := object?_of_some href
    have htaken := hrun.isFolder_indexFile (hfolder' ▸ hpath) hentry (hready _ _ hentry)
    obtain ⟨s', hstart', hlost⟩ := start_destroy_of_isFolder hrun.rooted (hfolder' ▸ hpath) htaken
      budget capacity objects'
    rw [hfolder'] at hstart'
    exact ⟨s', hstart', hlost⟩

/-- What would be the names of other folders are names in the store's folder. -/
theorem restart_keeps_unless_named_index_of_dots :
    let calls : List SessionStore.Call := [.store ".." 1 [1, 2], .store "a/b" 7 [9], .store "" 2 [3]]
    ∃ s₀ s', start ⟨⟨"store"⟩⟩ 4 1 { Disk.ofHome ["home"] with limit := none } = .ok s₀ ∧
      start ⟨⟨"store"⟩⟩ 4 1 (SessionStore.destroy (SessionStore.run s₀ calls)).files.disk = .ok s' ∧
      ∀ id, s'.object? id = (SessionStore.run s₀ calls).object? id := by
  intro calls
  have hdisk : Disk.OffersEmpty { Disk.ofHome ["home"] with limit := none } ⟨"store"⟩
      ["home", "store"] := ⟨⟨fun _ => rfl, rfl⟩, rfl, rfl⟩
  obtain ⟨-, s₀, s, hstart, hs, hfits, hkept, -⟩ := restart_keeps_unless_named_index ⟨⟨"store"⟩⟩ 4 1
    .empty .empty calls hdisk (by decide) (by decide) (by decide)
  have hnone : (start ⟨⟨"store"⟩⟩ 4 1 { Disk.ofHome ["home"] with limit := none }).toOption.map
      (fun s₀ => (SessionStore.run s₀ calls).session? StoreFolder.indexName) = some none := by
    decide +kernel
  rw [hstart] at hnone
  obtain ⟨s', hstart', hentry⟩ := hkept (hs ▸ Option.some.inj hnone) (hfits (by decide))
  exact ⟨s₀, s', hstart, hs ▸ hstart', hs ▸ hentry⟩

/-- A session with the name of the index takes its place, and the next store has no page of any
session. -/
theorem page_lost_of_named_index :
    let calls : List SessionStore.Call := [.store "PageStoreIndex" 1 [1], .store "a" 1 [2]]
    StoreFolder.sessionFolder ⟨⟨"store"⟩⟩ "PageStoreIndex" = StoreFolder.indexFile ⟨⟨"store"⟩⟩ ∧
    ∃ s₀ s', start ⟨⟨"store"⟩⟩ 4 1 { Disk.ofHome ["home"] with limit := none } = .ok s₀ ∧
      start ⟨⟨"store"⟩⟩ 4 1 (SessionStore.destroy (SessionStore.run s₀ calls)).files.disk = .ok s' ∧
      (SessionStore.load (SessionStore.run s₀ calls) "a" 1).1 = some [2] ∧
      (SessionStore.load s' "a" 1).1 = none := by
  intro calls
  have hdisk : Disk.OffersEmpty { Disk.ofHome ["home"] with limit := none }
      (StoreFolder.mk ⟨"store"⟩).root ["home", "store"] := ⟨⟨fun _ => rfl, rfl⟩, rfl, rfl⟩
  obtain ⟨s₀, hstart, horder, hfolder, -⟩ :=
    start_of_offersEmpty hdisk ["PageStoreIndex", "a"] 4 1 .empty
  have hcalls : ∀ c ∈ calls, c.session ∈ ["PageStoreIndex", "a"] ∧ c.IsAdmitted s₀.folder :=
    hfolder ▸ by decide
  obtain ⟨hrun, hsame, -⟩ := horder.run (hfolder ▸ by decide) hcalls
  have hafter : (start ⟨⟨"store"⟩⟩ 4 1 { Disk.ofHome ["home"] with limit := none }).toOption.map
      (fun s₀ => ((SessionStore.load (SessionStore.run s₀ calls) "a" 1).1,
        (SessionStore.run s₀ calls).files.disk.isFolder (StoreFolder.indexFile ⟨⟨"store"⟩⟩))) =
      some (some [2], true) := by
    decide +kernel
  rw [hstart] at hafter
  obtain ⟨hload, htaken⟩ := Prod.mk.inj (Option.some.inj hafter)
  have hfolder' := hsame.trans hfolder
  rw [← hfolder'] at htaken
  obtain ⟨s', hstart', hlost⟩ := start_destroy_of_isFolder hrun.rooted (hfolder' ▸ by decide)
    htaken 4 1 .empty
  rw [hfolder'] at hstart'
  refine ⟨rfl, s₀, s', hstart, hstart', hload, ?_⟩
  show (s'.load "a" 1).1 = none
  rw [load, session?, hlost]
  rfl

end DiskStore

end StatefulPages
