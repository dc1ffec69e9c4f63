import StatefulPages.Proofs.Storage.SessionFiles
import StatefulPages.Storage.DiskStore

/-!
# The sessions of a store on disk

A store on disk is `DiskStore.InOrder` while each of its sessions has an object and a folder of its
own, in which its pages are settled, and nothing else is in the folder of the store.

* `InOrder.change`: work on one session, be it new, going on or ending, leaves a store in order and
  the pages of the others alone;
* `InOrder.call`: any call leaves a store in order, and does to its pages what it does to those of an
  aged store (`DiskStore.toAged`).
-/

namespace StatefulPages

theorem Path.not_isSame {root p q : Path} {names others : List String}
    (hp : Path.Below root p names) (hq : Path.Below root q others) (hne : names ≠ others) :
    p.isSame q = false := by
  have hnames : p.names ≠ q.names := by
    rw [Disk.names_of_below hp, Disk.names_of_below hq]
    exact fun h => hne (List.append_cancel_left h)
  simp [isSame, hnames]

/-- Indicates ids whose folders are different ones. -/
def StoreFolder.OwnFolders (f : StoreFolder) (ids : List SessionId) : Prop :=
  ∀ a ∈ ids, ∀ b ∈ ids, f.sessionFolder a = f.sessionFolder b → a = b

instance (f : StoreFolder) (ids : List SessionId) : Decidable (f.OwnFolders ids) :=
  inferInstanceAs (Decidable (∀ a ∈ ids, ∀ b ∈ ids, _ → a = b))

theorem StoreFolder.OwnFolders.name_ne {f : StoreFolder} {ids : List SessionId}
    (h : f.OwnFolders ids) {a b : SessionId} (ha : a ∈ ids) (hb : b ∈ ids) (hne : a ≠ b) :
    folderName a ≠ folderName b := by
  intro hname
  refine hne (h a ha b hb ?_)
  rw [sessionFolder, sessionFolder, hname]

namespace SessionStore.Call

/-- Indicates a call whose files the disk accepts by their names. -/
def IsAdmitted (f : StoreFolder) : Call → Prop
  | .store session _ data => data ≠ [] → f.Admits session
  | _ => True

instance (f : StoreFolder) : (c : Call) → Decidable (c.IsAdmitted f)
  | .store _ _ data => inferInstanceAs (Decidable (data ≠ [] → _))
  | .load .. | .remove .. | .removeSession .. => inferInstanceAs (Decidable True)

/-- Indicates a call that stores no page of 4 GiB or more. -/
def isSmall : Call → Bool
  | .store _ _ data => data.length < Session.maxPageSize
  | _ => true

end SessionStore.Call

namespace Session

variable {root : Path} {place : Location} {name other : String} {e : Session}
  {files files' : Files}

/-- What happens under another name leaves a session and its pages alone. -/
theorem Settled.frame (h : Settled root place other e files)
    (hsep : Disk.Separate place files.disk)
    (hc : Disk.ChangesIn place name files.disk files'.disk) (hne : other ≠ name)
    (hpool : ∀ q n, files'.pool.Has q n → q.isSame e.dataFile = true → files.pool.Has q n) :
    Settled root place other e files' ∧
      e.pagesOn place other files'.disk = e.pagesOn place other files.disk := by
  have hfolder : files'.disk.get? (place ++ [other]) = files.disk.get? (place ++ [other]) :=
    hc.get?_eq other [] hne
  have hdata : files'.disk.get? (dataPlace place other) = files.disk.get? (dataPlace place other) := by
    rw [dataPlace_eq]
    exact hc.get?_eq other [StoreFolder.dataName] hne
  have hcontent : files'.disk.contentAt (dataPlace place other) =
      files.disk.contentAt (dataPlace place other) := by
    rw [dataPlace_eq]
    exact Disk.contentAt_changesIn hsep hc hne _
  refine ⟨{ h with
    ready := ?_
    notReady := fun hready => hfolder.trans (h.notReady hready)
    data_cases := hdata ▸ h.data_cases
    pooled := fun q n hq hsame => hdata.trans (h.pooled q n (hpool q n hq hsame) hsame)
    stop_le := hcontent ▸ h.stop_le }, by rw [pagesOn, pagesOn, hcontent]⟩
  intro hready
  rw [Disk.IsFolderAt, hfolder]
  exact h.ready hready

/-- Indicates the object for an id in a store: it knows what it is for, and is settled. -/
structure IsFor (f : StoreFolder) (budget : Nat) (place : Location) (id : SessionId) (e : Session)
    (files : Files) : Prop where
  id_eq : e.id = id
  folder_eq : e.folder = f.sessionFolder id
  budget_eq : e.table.budget = budget
  settled : e.Settled f.root place (StoreFolder.folderName id) files

variable {f : StoreFolder} {budget : Nat} {id : SessionId}

theorem IsFor.dataFile_eq (h : e.IsFor f budget place id files) :
    e.dataFile = StoreFolder.dataFileIn (f.sessionFolder id) := by
  rw [dataFile, h.folder_eq]

theorem IsFor.below_dataFile (h : e.IsFor f budget place id files) :
    Path.Below f.root (StoreFolder.dataFileIn (f.sessionFolder id))
      [StoreFolder.folderName id, StoreFolder.dataName] :=
  h.dataFile_eq ▸ h.settled.data_below

@[simp] theorem folder_ofFolder (id : SessionId) (folder : Path) (budget : Nat) :
    (ofFolder id folder budget).folder = folder := rfl

@[simp] theorem dataFile_ofFolder (id : SessionId) (folder : Path) (budget : Nat) :
    (ofFolder id folder budget).dataFile = StoreFolder.dataFileIn folder := rfl

/-- What is new on a disk that has nothing for it, and in a pool that does not know it. -/
theorem isFor_ofFolder (hadmits : f.Admits id)
    (hnone : files.disk.get? (place ++ [StoreFolder.folderName id]) = none)
    (hpool : ∀ q n, files.pool.Has q n →
      q.isSame (StoreFolder.dataFileIn (f.sessionFolder id)) = false) (budget : Nat) :
    (ofFolder id (f.sessionFolder id) budget).IsFor f budget place id files := by
  have hdata : files.disk.get? (dataPlace place (StoreFolder.folderName id)) = none := by
    rw [dataPlace, Disk.get?_append, hnone, Tree.get?_none]
  refine ⟨rfl, folder_ofFolder .., rfl, ?_⟩
  refine {
    bound := rfl
    folder_below := (folder_ofFolder ..).symm ▸ hadmits.below_sessionFolder
    data_below := (dataFile_ofFolder ..).symm ▸ hadmits.below_dataFile
    ready := fun hready => Bool.noConfusion hready
    notReady := fun _ => hnone
    data_cases := .inl hdata
    pooled := fun q n hq hsame => ?_
    wellKept := WindowTable.wellKept_empty budget
    window_size := fun w hw => absurd hw List.not_mem_nil
    stop_le := fun w hw => absurd hw List.not_mem_nil }
  rw [dataFile_ofFolder, hpool q n hq] at hsame
  cases hsame

end Session

namespace DiskStore

variable {s s' : DiskStore} {place : Location} {ids : List SessionId} {id : SessionId}
  {ref : SessionRef} {e : Session} {files : Files} {x : Option Session}

/-- The session object for an id. -/
def object? (s : DiskStore) (id : SessionId) : Option Session :=
  (s.session? id).map s.objects.get

theorem object?_of_some (h : s.session? id = some ref) : s.object? id = some (s.objects.get ref) := by
  rw [object?, h, Option.map_some]

theorem object?_of_none (h : s.session? id = none) : s.object? id = none := by
  rw [object?, h, Option.map_none]

/-- Indicates a store in which every session has an object of its own. -/
structure Distinct (s : DiskStore) : Prop where
  names_nodup : s.sessions.names.Nodup
  ref_lt : ∀ id ref, s.session? id = some ref → ref < s.objects.next
  id_eq : ∀ id id' ref, s.session? id = some ref → s.session? id' = some ref → id = id'

theorem distinct_of_noSessions (s : DiskStore) (h : s.sessions = {}) : s.Distinct := by
  have hnone : ∀ id, s.session? id = none := by
    intro id
    rw [session?, h]
    rfl
  refine ⟨h ▸ List.nodup_nil, fun id ref hid => ?_, fun id id' ref hid => ?_⟩
  · rw [hnone] at hid
    cases hid
  · rw [hnone] at hid
    cases hid

/-! ## What happens to one object -/

section Objects

variable {other : SessionId}

/-- Replacing an object changes the entry of one session. -/
theorem object?_set (h : s.Distinct) (hid : s.session? id = some ref) (e : Session) (files : Files)
    (other : SessionId) : object? { s with objects := s.objects.set ref e, files } other =
      if other = id then some e else s.object? other := by
  have hsession : session? { s with objects := s.objects.set ref e, files } other =
      s.session? other := rfl
  by_cases heq : other = id
  · rw [if_pos heq, object?, hsession, heq, hid, Option.map_some, Heap.get_set_self]
  · rw [if_neg heq, object?, object?, hsession]
    cases hother : s.session? other with
    | none => rfl
    | some ref' =>
      have href : ref' ≠ ref := fun href => heq (h.id_eq other id ref (href ▸ hother) hid)
      rw [Option.map_some, Option.map_some, Heap.get_set_of_ne _ _ href]

theorem Distinct.set (h : s.Distinct) (ref : SessionRef) (e : Session) (files : Files) :
    Distinct { s with objects := s.objects.set ref e, files } :=
  ⟨h.names_nodup, h.ref_lt, h.id_eq⟩

theorem session?_addSession_self (s : DiskStore) (e : Session) :
    (s.addSession e).session? e.id = some s.objects.next :=
  Keyed.get?_set_self ..

theorem session?_addSession_of_ne (s : DiskStore) (e : Session) (h : other ≠ e.id) :
    (s.addSession e).session? other = s.session? other :=
  Keyed.get?_set_of_ne _ _ h

theorem addSession_cases (h : (s.addSession e).session? other = some ref) :
    (other = e.id ∧ ref = s.objects.next) ∨ (other ≠ e.id ∧ s.session? other = some ref) := by
  by_cases heq : other = e.id
  · rw [heq, session?_addSession_self, Option.some.injEq] at h
    exact .inl ⟨heq, h.symm⟩
  · rw [session?_addSession_of_ne s e heq] at h
    exact .inr ⟨heq, h⟩

/-- Adding an object gives one session an entry. -/
theorem object?_addSession (h : s.Distinct) (e : Session) (other : SessionId) :
    (s.addSession e).object? other = if other = e.id then some e else s.object? other := by
  by_cases heq : other = e.id
  · have hget : (s.addSession e).objects.get s.objects.next = e := Heap.get_add ..
    rw [if_pos heq, heq, object?_of_some (session?_addSession_self s e), hget]
  · rw [if_neg heq, object?, object?, session?_addSession_of_ne s e heq]
    cases hother : s.session? other with
    | none => rfl
    | some ref =>
      exact congrArg some (Heap.get_add_of_lt _ _ (h.ref_lt other ref hother))

theorem Distinct.addSession (h : s.Distinct) (e : Session) : (s.addSession e).Distinct where
  names_nodup := Keyed.nodup_names_set h.names_nodup ..
  ref_lt := by
    intro other ref hother
    rcases addSession_cases hother with ⟨-, href⟩ | ⟨-, hother⟩
    · rw [href]
      exact Nat.lt_succ_self _
    · exact Nat.lt_succ_of_lt (h.ref_lt other ref hother)
  id_eq := by
    intro other other' ref hother hother'
    rcases addSession_cases hother with ⟨heq, href⟩ | ⟨-, hother⟩
    · rcases addSession_cases hother' with ⟨heq', -⟩ | ⟨-, hother'⟩
      · exact heq.trans heq'.symm
      · exact absurd href (Nat.ne_of_lt (h.ref_lt other' ref hother'))
    · rcases addSession_cases hother' with ⟨-, href⟩ | ⟨-, hother'⟩
      · exact absurd href (Nat.ne_of_lt (h.ref_lt other ref hother))
      · exact h.id_eq other other' ref hother hother'

/-- Forgetting a session takes its entry. -/
theorem object?_erase (s : DiskStore) (id other : SessionId) :
    object? { s with sessions := s.sessions.erase id } other =
      if other = id then none else s.object? other := by
  by_cases heq : other = id
  · rw [if_pos heq, heq]
    exact object?_of_none (Keyed.get?_erase_self ..)
  · have hsession : session? { s with sessions := s.sessions.erase id } other = s.session? other :=
      Keyed.get?_erase_of_ne _ heq
    rw [if_neg heq, object?, object?, hsession]

theorem Distinct.erase (h : s.Distinct) (id : SessionId) :
    Distinct { s with sessions := s.sessions.erase id } := by
  have hcases : ∀ other ref, session? { s with sessions := s.sessions.erase id } other = some ref →
      s.session? other = some ref := by
    intro other ref hother
    have hne : other ≠ id := by
      intro heq
      rw [heq] at hother
      exact absurd (hother.symm.trans (Keyed.get?_erase_self ..)) (by simp)
    exact (Keyed.get?_erase_of_ne _ hne).symm.trans hother
  exact ⟨Keyed.nodup_names_erase h.names_nodup id,
    fun other ref hother => h.ref_lt other ref (hcases other ref hother),
    fun other other' ref hother hother' =>
      h.id_eq other other' ref (hcases other ref hother) (hcases other' ref hother')⟩

end Objects

/-! ## Stores in order -/

/-- The pages of what may be a session. -/
def pagesFrom (place : Location) (id : SessionId) (x : Option Session) (d : Disk) :
    List StoredPage :=
  x.elim [] (·.pagesOn place (StoreFolder.folderName id) d)

/-- The pages of a session. -/
def pagesOf (place : Location) (s : DiskStore) (id : SessionId) : List StoredPage :=
  pagesFrom place id (s.object? id) s.files.disk

/-- What a store on disk amounts to. -/
def toAged (place : Location) (s : DiskStore) : AgedStore :=
  { budget := s.budget, pages := s.pagesOf place }

theorem toAged_eq {a : AgedStore} (hbudget : s.budget = a.budget)
    (hpages : ∀ other, s.pagesOf place other = a.pages other) : s.toAged place = a := by
  rw [toAged, hbudget, funext hpages]

/-- Indicates a store whose sessions, among those with the given ids, are settled, each with an
object and a folder of its own. There is nothing else in its folder. -/
structure InOrder (ids : List SessionId) (place : Location) (s : DiskStore) : Prop where
  rooted : s.files.disk.Rooted s.folder.root place
  separate : Disk.Separate place s.files.disk
  distinct : s.Distinct
  known : ∀ id e, s.object? id = some e → id ∈ ids
  isFor : ∀ id e, s.object? id = some e → e.IsFor s.folder s.budget place id s.files
  exists_object : ∀ name, s.files.disk.get? (place ++ [name]) ≠ none →
    ∃ id e, s.object? id = some e ∧ StoreFolder.folderName id = name
  pooled : ∀ q n, s.files.pool.Has q n →
    ∃ id e, s.object? id = some e ∧ q = StoreFolder.dataFileIn (s.folder.sessionFolder id)

/-- Indicates files in which there is nothing for an id. -/
structure Free (f : StoreFolder) (place : Location) (id : SessionId) (files : Files) : Prop where
  get?_eq : files.disk.get? (place ++ [StoreFolder.folderName id]) = none
  pool : ∀ q n, files.pool.Has q n →
    q.isSame (StoreFolder.dataFileIn (f.sessionFolder id)) = false

/-- What happens under another name leaves a session of a store and its pages alone. -/
theorem InOrder.frame (h : s.InOrder ids place) (hid : s.object? id = some e) {name : String}
    (hc : Disk.ChangesIn place name s.files.disk files.disk)
    (hne : StoreFolder.folderName id ≠ name)
    (hpool : ∀ q n, files.pool.Has q n → q.isSame e.dataFile = true → s.files.pool.Has q n) :
    e.IsFor s.folder s.budget place id files ∧
      e.pagesOn place (StoreFolder.folderName id) files.disk =
        e.pagesOn place (StoreFolder.folderName id) s.files.disk := by
  have hfor := h.isFor id e hid
  obtain ⟨hsettled, hpages⟩ := hfor.settled.frame h.separate hc hne hpool
  exact ⟨{ hfor with settled := hsettled }, hpages⟩

/-- Work on one session leaves a store in order and the pages of other sessions alone, if the session
is settled then or nothing is left of it. -/
theorem InOrder.change (h : s.InOrder ids place) (hown : s.folder.OwnFolders ids) (hid : id ∈ ids)
    (hbelow : Path.Below s.folder.root (StoreFolder.dataFileIn (s.folder.sessionFolder id))
      [StoreFolder.folderName id, StoreFolder.dataName])
    (hdistinct : s'.Distinct)
    (hentry : ∀ other, s'.object? other = if other = id then x else s.object? other)
    (hfolder : s'.folder = s.folder) (hbudget : s'.budget = s.budget)
    (hw : Session.Worked place (StoreFolder.folderName id)
      (StoreFolder.dataFileIn (s.folder.sessionFolder id)) s.files s'.files)
    (hsome : ∀ e, x = some e → e.IsFor s.folder s.budget place id s'.files)
    (hnone : x = none → Free s.folder place id s'.files) :
    s'.InOrder ids place ∧ ∀ other, s'.pagesOf place other =
      if other = id then pagesFrom place id x s'.files.disk else s.pagesOf place other := by
  -- The other sessions have other names, which the work leaves alone.
  have hframe : ∀ other e, other ≠ id → s.object? other = some e →
      e.IsFor s.folder s.budget place other s'.files ∧
        e.pagesOn place (StoreFolder.folderName other) s'.files.disk =
          e.pagesOn place (StoreFolder.folderName other) s.files.disk := by
    intro other e hne hother
    have hname := hown.name_ne (h.known other e hother) hid hne
    have hdiffer := Path.not_isSame hbelow (h.isFor other e hother).settled.data_below fun heq =>
      hname (List.cons.inj heq).1.symm
    refine h.frame hother hw.changes hname fun q n hq hsame => ?_
    rcases hw.pool q n hq with hq | hq
    · exact hq
    · rw [hq, hdiffer] at hsame
      cases hsame
  have hcases : ∀ other e, s'.object? other = some e →
      (other = id ∧ x = some e) ∨ (other ≠ id ∧ s.object? other = some e) := by
    intro other e hother
    rw [hentry] at hother
    split at hother
    · rename_i heq
      exact .inl ⟨heq, hother⟩
    · rename_i hne
      exact .inr ⟨hne, hother⟩
  have hkept : ∀ other, other ≠ id → s'.object? other = s.object? other := fun other hne =>
    (hentry other).trans (if_neg hne)
  constructor
  · refine {
      rooted := hfolder ▸ hw.changes.rooted _ h.rooted
      separate := h.separate.changesIn hw.changes
      distinct := hdistinct
      known := fun other e hother => ?_
      isFor := fun other e hother => ?_
      exists_object := fun name hname => ?_
      pooled := fun q n hq => ?_ }
    · rcases hcases other e hother with ⟨heq, -⟩ | ⟨-, hother⟩
      · exact heq ▸ hid
      · exact h.known other e hother
    · rw [hfolder, hbudget]
      rcases hcases other e hother with ⟨heq, hx⟩ | ⟨hne, hother⟩
      · exact heq ▸ hsome e hx
      · exact (hframe other e hne hother).1
    · by_cases heq : name = StoreFolder.folderName id
      · cases hx : x with
        | none => exact absurd (heq ▸ (hnone hx).get?_eq) hname
        | some e => exact ⟨id, e, (hentry id).trans ((if_pos rfl).trans hx), heq.symm⟩
      · obtain ⟨other, e, hother, hname'⟩ := h.exists_object name
          fun hthere => hname ((hw.changes.get?_eq name [] heq).trans hthere)
        exact ⟨other, e, (hkept other fun hid => heq (hid ▸ hname'.symm)).trans hother, hname'⟩
    · rw [hfolder]
      by_cases heq : q = StoreFolder.dataFileIn (s.folder.sessionFolder id)
      · cases hx : x with
        | none =>
          have hsame := (hnone hx).pool q n hq
          rw [heq] at hsame
          simp [Path.isSame] at hsame
        | some e => exact ⟨id, e, (hentry id).trans ((if_pos rfl).trans hx), heq⟩
      · rcases hw.pool q n hq with hq | hq
        · obtain ⟨other, e, hother, hpath⟩ := h.pooled q n hq
          exact ⟨other, e, (hkept other fun hid => heq (hid ▸ hpath)).trans hother, hpath⟩
        · exact absurd hq heq
  · intro other
    rw [pagesOf, hentry]
    split
    · rename_i heq
      rw [heq]
    · rename_i hne
      rw [pagesOf]
      cases hother : s.object? other with
      | none => rfl
      | some e => exact (hframe other e hne hother).2

/-- What is not there for an id leaves room for a session. -/
theorem InOrder.free (h : s.InOrder ids place) (hown : s.folder.OwnFolders ids) (hid : id ∈ ids)
    (hbelow : Path.Below s.folder.root (StoreFolder.dataFileIn (s.folder.sessionFolder id))
      [StoreFolder.folderName id, StoreFolder.dataName])
    (hnone : s.object? id = none) : Free s.folder place id s.files := by
  -- Only another session with the name could be in the way.
  have hname : ∀ other e, s.object? other = some e →
      StoreFolder.folderName other ≠ StoreFolder.folderName id := by
    intro other e hother
    refine hown.name_ne (h.known other e hother) hid fun heq => ?_
    rw [heq, hnone] at hother
    cases hother
  constructor
  · refine Decidable.byContradiction fun hthere => ?_
    obtain ⟨other, e, hother, heq⟩ := h.exists_object _ hthere
    exact hname other e hother heq
  · intro q n hq
    obtain ⟨other, e, hother, heq⟩ := h.pooled q n hq
    rw [heq]
    exact Path.not_isSame (h.isFor other e hother).below_dataFile hbelow fun hsame =>
      hname other e hother (List.cons.inj hsame).1

/-- There is an object for an id after it was asked for, and the pages are what they were. -/
theorem InOrder.obtain (h : s.InOrder ids place) (hown : s.folder.OwnFolders ids) (hid : id ∈ ids)
    (hadmits : s.folder.Admits id) : ∃ ref s', s.obtain id = (ref, s') ∧ s'.InOrder ids place ∧
      s'.session? id = some ref ∧ s'.toAged place = s.toAged place ∧ s'.folder = s.folder := by
  rw [DiskStore.obtain]
  cases hsession : s.session? id with
  | some ref => exact ⟨ref, s, rfl, h, hsession, rfl, rfl⟩
  | none =>
    have hentry := object?_of_none hsession
    have hfree := h.free hown hid hadmits.below_dataFile hentry
    have hnew := Session.isFor_ofFolder hadmits hfree.get?_eq hfree.pool s.budget
    obtain ⟨hadded, hpages⟩ := h.change hown hid hadmits.below_dataFile
      (h.distinct.addSession (.ofFolder id (s.folder.sessionFolder id) s.budget))
      (object?_addSession h.distinct _) rfl rfl (.refl ..)
      (fun e he => Option.some.inj he ▸ hnew) (fun he => nomatch he)
    refine ⟨s.objects.next, _, rfl, hadded, session?_addSession_self .., toAged_eq rfl ?_, rfl⟩
    intro other
    rw [hpages]
    split
    · rename_i heq
      rw [heq]
      show [] = s.pagesOf place id
      rw [pagesOf, hentry]
      rfl
    · rfl

/-! ## Calls -/

/-- Work on a session that goes on. -/
theorem InOrder.replace (h : s.InOrder ids place) (hown : s.folder.OwnFolders ids)
    (change : List StoredPage → List StoredPage) (hid : s.session? id = some ref) {files' : Files}
    (hw : Session.Worked place (StoreFolder.folderName id) (s.objects.get ref).dataFile s.files
      files')
    (hfor : e.IsFor s.folder s.budget place id files')
    (hpages : e.pagesOn place (StoreFolder.folderName id) files'.disk =
      change ((s.objects.get ref).pagesOn place (StoreFolder.folderName id) s.files.disk)) :
    InOrder ids place { s with objects := s.objects.set ref e, files := files' } ∧
      toAged place { s with objects := s.objects.set ref e, files := files' } =
        (s.toAged place).modify id change := by
  have hentry := object?_of_some hid
  have hold := h.isFor id _ hentry
  rw [hold.dataFile_eq] at hw
  obtain ⟨hkept, hpages'⟩ := h.change hown (h.known id _ hentry) hold.below_dataFile
    (h.distinct.set ref e files') (object?_set h.distinct hid e files') rfl rfl hw
    (fun e' he => Option.some.inj he ▸ hfor) (fun he => nomatch he)
  refine ⟨hkept, toAged_eq rfl fun other => ?_⟩
  rw [hpages', AgedStore.modify]
  dsimp only
  split
  · rename_i heq
    have hold : s.pagesOf place id =
        (s.objects.get ref).pagesOn place (StoreFolder.folderName id) s.files.disk := by
      rw [pagesOf, hentry]
      rfl
    rw [heq]
    exact hpages.trans (congrArg change hold.symm)
  · rfl

/-- A session that is not there has no pages to change. -/
theorem modify_of_none (h : s.session? id = none) {change : List StoredPage → List StoredPage}
    (hchange : change [] = []) : s.toAged place = (s.toAged place).modify id change := by
  refine toAged_eq rfl fun other => ?_
  rw [AgedStore.modify]
  dsimp only
  split
  · rename_i heq
    have hnone : s.pagesOf place id = [] := by
      rw [pagesOf, object?_of_none h]
      rfl
    rw [heq, hnone]
    exact (hchange ▸ congrArg change hnone).symm
  · rfl

/-- A page is read as it was stored. -/
theorem InOrder.load (h : s.InOrder ids place) (hown : s.folder.OwnFolders ids)
    (id : SessionId) (page : PageId) : ∃ s', s.load id page = ((s.toAged place).load id page, s') ∧
      s'.InOrder ids place ∧ s'.toAged place = s.toAged place ∧ s'.folder = s.folder := by
  rw [DiskStore.load, AgedStore.load]
  show ∃ s', _ = (((s.pagesOf place id).find? _).map _, s') ∧ _
  rw [pagesOf]
  cases hid : s.session? id with
  | none =>
    rw [object?_of_none hid]
    exact ⟨s, rfl, h, rfl, rfl⟩
  | some ref =>
    have hfor := h.isFor id _ (object?_of_some hid)
    obtain ⟨files', hload, hsettled, hw, hpages⟩ :=
      Session.load_of_settled hfor.settled h.rooted page
    rw [object?_of_some hid]
    obtain ⟨hkept, haged⟩ := h.replace hown (fun ps => ps) hid hw
      { hfor with settled := hsettled } hpages
    rw [Heap.set_get] at hkept haged
    refine ⟨{ s with files := files' }, ?_, hkept, haged.trans ?_, rfl⟩
    · dsimp only [loadFrom]
      rw [hload]
      rfl
    · simp only [AgedStore.modify, ite_self]

/-- A page is stored in place of one with its id, and the oldest ones give way. -/
theorem InOrder.store (h : s.InOrder ids place) (hown : s.folder.OwnFolders ids) (hid : id ∈ ids)
    {data : List UInt8} (hadmits : data ≠ [] → s.folder.Admits id)
    (hsmall : data.length < Session.maxPageSize) (page : PageId) :
    (s.store id page data).InOrder ids place ∧
      (s.store id page data).toAged place = (s.toAged place).store id page data ∧
      (s.store id page data).folder = s.folder := by
  rw [DiskStore.store, AgedStore.store]
  by_cases hdata : data = []
  · rw [if_pos hdata, if_pos hdata]
    exact ⟨h, rfl, rfl⟩
  · rw [if_neg hdata, if_neg hdata]
    obtain ⟨ref, made, hobtain, hmade, hsession, haged, hfolder⟩ :=
      h.obtain hown hid (hadmits hdata)
    rw [← hfolder] at hown
    have hfor := hmade.isFor id _ (object?_of_some hsession)
    obtain ⟨e', files', hsave, hsettled, hw, hid', hfolder', hbudget, hpages⟩ :=
      Session.save_of_settled hfor.settled hmade.rooted hdata hsmall page
    rw [hfor.budget_eq] at hpages
    obtain ⟨hkept, haged'⟩ := hmade.replace (e := e') hown _ hsession hw
      ⟨hid'.trans hfor.id_eq, hfolder'.trans hfor.folder_eq, hbudget.trans hfor.budget_eq, hsettled⟩
      hpages
    have hbudget' : made.budget = s.budget := congrArg AgedStore.budget haged
    rw [hobtain]
    simp only [saveIn, hsave]
    exact ⟨hkept, by rw [haged', haged, hbudget']; rfl, hfolder⟩

/-- A page that is too large is not stored. -/
theorem InOrder.store_of_large (h : s.InOrder ids place) (hown : s.folder.OwnFolders ids)
    (hid : id ∈ ids) {data : List UInt8} (hadmits : data ≠ [] → s.folder.Admits id)
    (hlarge : Session.maxPageSize ≤ data.length) (page : PageId) :
    (s.store id page data).InOrder ids place ∧
      (s.store id page data).toAged place = s.toAged place ∧
      (s.store id page data).folder = s.folder := by
  have hdata : data ≠ [] := by
    intro hnil
    rw [hnil] at hlarge
    exact absurd hlarge (by decide)
  obtain ⟨ref, made, hobtain, hmade, -, haged, hfolder⟩ := h.obtain hown hid (hadmits hdata)
  rw [DiskStore.store, if_neg hdata, hobtain]
  simp only [saveIn, Session.save]
  rw [if_pos (.inr (.inl hlarge)), Heap.set_get]
  exact ⟨hmade, haged, hfolder⟩

/-- A page that is forgotten is not there any more. -/
theorem InOrder.remove (h : s.InOrder ids place) (hown : s.folder.OwnFolders ids)
    (id : SessionId) (page : PageId) : (s.remove id page).InOrder ids place ∧
      (s.remove id page).toAged place = (s.toAged place).remove id page ∧
      (s.remove id page).folder = s.folder := by
  rw [DiskStore.remove, AgedStore.remove]
  cases hid : s.session? id with
  | none => exact ⟨h, modify_of_none hid rfl, rfl⟩
  | some ref =>
    have hfor := h.isFor id _ (object?_of_some hid)
    obtain ⟨hsettled, hid', hfolder, hbudget, hpages⟩ :=
      Session.remove_of_settled hfor.settled page
    obtain ⟨hkept, haged⟩ := h.replace hown (AgedStore.without page) hid (.refl ..)
      ⟨hid'.trans hfor.id_eq, hfolder.trans hfor.folder_eq, hbudget.trans hfor.budget_eq, hsettled⟩
      hpages
    exact ⟨hkept, haged, rfl⟩

/-- A session that is removed has no pages any more. -/
theorem InOrder.removeSession (h : s.InOrder ids place) (hown : s.folder.OwnFolders ids)
    (id : SessionId) : (s.removeSession id).InOrder ids place ∧
      (s.removeSession id).toAged place = (s.toAged place).removeSession id ∧
      (s.removeSession id).folder = s.folder := by
  rw [DiskStore.removeSession]
  cases hid : s.session? id with
  | none => exact ⟨h, modify_of_none hid rfl, rfl⟩
  | some ref =>
    have hentry := object?_of_some hid
    have hfor := h.isFor id _ hentry
    obtain ⟨files', hunbind, hw, hgone, hclosed⟩ :=
      Session.unbind_of_settled hfor.settled h.rooted
    rw [hfor.dataFile_eq] at hw hclosed
    -- The object is told that its session has ended before it is forgotten.
    let e : Session := { s.objects.get ref with unbound := true }
    have hgot : ∀ other, object? { s with
        objects := s.objects.set ref e, files := files', sessions := s.sessions.erase id } other =
        if other = id then none else s.object? other := by
      intro other
      refine (object?_erase { s with objects := s.objects.set ref e, files := files' } id other).trans ?_
      rw [object?_set h.distinct hid e files' other]
      split <;> rfl
    obtain ⟨hkept, hpages⟩ := h.change hown (h.known id _ hentry) hfor.below_dataFile
      ((h.distinct.set ref e files').erase id) hgot rfl rfl hw (fun e he => nomatch he)
      (fun _ => ⟨hgone, hclosed⟩)
    simp only [unbind, hunbind]
    refine ⟨hkept, toAged_eq rfl fun other => ?_, trivial⟩
    rw [hpages]
    rfl

/-- A call is answered like that of an aged store, and does the same to the pages, unless it is to
store a page that is too large: then it does nothing to them. -/
theorem InOrder.call (h : s.InOrder ids place) (hown : s.folder.OwnFolders ids)
    {c : SessionStore.Call} (hid : c.session ∈ ids) (hadmitted : c.IsAdmitted s.folder) :
    (SessionStore.call s c).1 = (SessionStore.call (s.toAged place) c).1 ∧
      (SessionStore.call s c).2.toAged place =
        (if c.isSmall then (SessionStore.call (s.toAged place) c).2 else s.toAged place) ∧
      (SessionStore.call s c).2.InOrder ids place ∧
      (SessionStore.call s c).2.folder = s.folder := by
  cases c with
  | load id page =>
    obtain ⟨s', hload, hkept, haged, hfolder⟩ := h.load hown id page
    simp only [SessionStore.call, SessionStore.load, hload]
    exact ⟨trivial, haged, hkept, hfolder⟩
  | store id page data =>
    by_cases hsmall : data.length < Session.maxPageSize
    · obtain ⟨hkept, haged, hfolder⟩ := h.store hown hid hadmitted hsmall page
      refine ⟨rfl, haged.trans ?_, hkept, hfolder⟩
      rw [SessionStore.Call.isSmall, decide_eq_true hsmall, if_pos rfl]
      rfl
    · obtain ⟨hkept, haged, hfolder⟩ := h.store_of_large hown hid hadmitted (Nat.not_lt.1 hsmall) page
      refine ⟨rfl, haged.trans ?_, hkept, hfolder⟩
      rw [SessionStore.Call.isSmall, decide_eq_false hsmall]
      rfl
  | remove id page =>
    obtain ⟨hkept, haged, hfolder⟩ := h.remove hown id page
    exact ⟨rfl, haged, hkept, hfolder⟩
  | removeSession id =>
    obtain ⟨hkept, haged, hfolder⟩ := h.removeSession hown id
    exact ⟨rfl, haged, hkept, hfolder⟩

end DiskStore

end StatefulPages
