import StatefulPages.Proofs.Disk.Calls

/-!
# The files that paths lead to

On any disk, whatever calls fail. `Disk.fileAt?` is the file that a path leads to. Where nothing is gone
(`Disk.Grows`) a path leads where it led; this is so when folders are made, whether or not all of them
can be made, and when a file is made.

* `grows_createFolders`, `openFile_cases`: what making folders and opening a file do;
* `disk_writeAt`: a write that fails has written the first bytes, if any.
-/

namespace StatefulPages

namespace Content

variable {c : Content} {offset : Nat} {data : List UInt8}

@[simp] theorem write_nil (c : Content) (offset : Nat) : c.write offset [] = c := by
  simp [write]

theorem size_le_write (c : Content) (offset : Nat) (data : List UInt8) :
    c.size ≤ (c.write offset data).size := by
  rw [write]
  split
  · exact Nat.le_refl _
  · exact Nat.le_max_left ..

end Content

/-! ## Trees from which nothing is gone -/

namespace Tree

/-- Indicates that folders are folders still, and files are where they were. -/
structure Extends (t t' : Option Tree) : Prop where
  isFolder : ∀ q, IsFolder (get? t q) → IsFolder (get? t' q)
  file : ∀ q n, get? t q = some (.file n) → get? t' q = some (.file n)

variable {t t' t'' : Option Tree} {entries : Keyed Tree} {name : String} {s : Tree}

theorem Extends.refl (t : Option Tree) : Extends t t :=
  ⟨fun _ h => h, fun _ _ h => h⟩

theorem Extends.trans (h : Extends t t') (h' : Extends t' t'') : Extends t t'' :=
  ⟨fun q hq => h'.isFolder q (h.isFolder q hq), fun q n hq => h'.file q n (h.file q n hq)⟩

theorem extends_none (t : Option Tree) : Extends none t where
  isFolder := fun q hq => (get?_none q ▸ hq : IsFolder none).elim
  file := fun q n hq => by
    rw [get?_none] at hq
    cases hq

/-- A folder in which something is added to one entry. -/
theorem extends_set (h : Extends (entries.get? name) (some s)) :
    Extends (some (folder entries)) (some (folder (entries.set name s))) := by
  constructor
  · intro q hq
    cases q with
    | nil => trivial
    | cons x rest =>
      by_cases hx : x = name
      · subst hx
        rw [get?, Keyed.get?_set_self]
        exact h.isFolder rest hq
      · rw [get?, Keyed.get?_set_of_ne _ _ hx]
        exact hq
  · intro q n hq
    cases q with
    | nil => cases hq
    | cons x rest =>
      by_cases hx : x = name
      · subst hx
        rw [get?, Keyed.get?_set_self]
        exact h.file rest n hq
      · rw [get?, Keyed.get?_set_of_ne _ _ hx]
        exact hq

/-- Making folders adds to a tree, also where it fails. -/
theorem extends_makeFolders (t : Tree) (p : Location) : Extends (some t) (some (t.makeFolders p).2) := by
  induction p generalizing t with
  | nil => cases t <;> exact .refl _
  | cons name names ih =>
    cases t with
    | file n => exact .refl _
    | folder entries =>
      rw [makeFolders]
      split
      · exact .refl _
      · refine extends_set ?_
        cases entries.get? name with
        | none => exact extends_none _
        | some s => exact ih s

end Tree

namespace Disk

variable {d d' : Disk} {above parts : List String} {part : String} {place q : Location} {p : Path}
  {t : Option Tree} {n offset size : Nat} {data : List UInt8}

/-! ## Walks -/

/-- Where a part leads to from a location, in reverse. -/
def stepFrom (above : List String) (part : String) : List String :=
  if part = "." then above else if part = ".." then above.tail else part :: above

/-- A walk goes on from a folder only, to where its first part leads. -/
theorem walk_cons_eq_ok_iff {r : Location × Option Tree} :
    d.walk above (d.get? above.reverse) (part :: parts) = .ok r ↔
      d.IsFolderAt above.reverse ∧
      (part = "." ∨ part = ".." ∨ part.utf8ByteSize ≤ Tree.maxNameLength) ∧
      d.walk (stepFrom above part) (d.get? (stepFrom above part).reverse) parts = .ok r := by
  cases hhere : d.get? above.reverse with
  | none => simp [walk, IsFolderAt, hhere, Tree.IsFolder]
  | some found =>
    cases found with
    | file m => simp [walk, IsFolderAt, hhere, Tree.IsFolder]
    | folder entries =>
      have hfolder : d.IsFolderAt above.reverse := by
        rw [IsFolderAt, hhere]
        trivial
      have hchild : entries.get? part = d.get? (part :: above).reverse := by
        rw [List.reverse_cons, get?_append, hhere]
        rfl
      rw [walk, stepFrom]
      split
      · rename_i hdot
        simp [hfolder, hdot, hhere]
      · rename_i hdot
        split
        · rename_i hup
          simp [hfolder, hup]
        · rename_i hup
          split
          · rename_i hlong
            simp [hdot, hup, Nat.not_le.2 hlong]
          · rename_i hlong
            simp only [hfolder, Nat.not_lt.1 hlong, or_true, true_and, hchild]

/-- What is missing where a walk ends is missing from a folder. -/
theorem exists_parent_of_walk (hne : parts ≠ [])
    (h : d.walk above (d.get? above.reverse) parts = .ok (place, none)) :
    ∃ q name, place = q ++ [name] ∧ d.IsFolderAt q := by
  induction parts generalizing above with
  | nil => exact absurd rfl hne
  | cons part parts ih =>
    obtain ⟨hfolder, -, hrest⟩ := walk_cons_eq_ok_iff.1 h
    cases parts with
    | cons next parts => exact ih (List.cons_ne_nil next parts) hrest
    | nil =>
      rw [walk, Except.ok.injEq, Prod.mk.injEq] at hrest
      obtain ⟨rfl, hnone⟩ := hrest
      have hnot : ¬ d.IsFolderAt (stepFrom above part).reverse := by
        rw [IsFolderAt, hnone]
        exact id
      rw [stepFrom] at hnot ⊢
      split at hnot
      · exact absurd hfolder hnot
      · split at hnot
        · refine absurd ?_ hnot
          cases above with
          | nil => exact hfolder
          | cons last above => exact isFolderAt_of_append (List.reverse_cons ▸ hfolder)
        · rename_i hdot hup
          rw [if_neg hdot, if_neg hup]
          exact ⟨above.reverse, part, List.reverse_cons, hfolder⟩

/-! ## Disks from which nothing is gone -/

/-- Indicates that a disk has all that another one has, in the same places. -/
structure Grows (d d' : Disk) : Prop where
  home_eq : d'.home = d.home
  root : Tree.Extends (some d.root) (some d'.root)

theorem Grows.refl (d : Disk) : Grows d d :=
  ⟨rfl, .refl _⟩

theorem Grows.trans {d'' : Disk} (h : Grows d d') (h' : Grows d' d'') : Grows d d'' :=
  ⟨h'.home_eq.trans h.home_eq, h.root.trans h'.root⟩

theorem grows_contents (d : Disk) (calls : Nat) (contents : Heap Content) :
    Grows d { d with calls, contents } :=
  ⟨rfl, .refl _⟩

theorem grows_tick (d : Disk) : Grows d d.tick :=
  grows_contents d _ _

theorem Grows.walk (h : Grows d d') (hw : d.walk above (d.get? above.reverse) parts = .ok (place, t)) :
    d'.walk above (d'.get? above.reverse) parts = .ok (place, d'.get? place) := by
  induction parts generalizing above with
  | nil =>
    rw [Disk.walk, Except.ok.injEq, Prod.mk.injEq] at hw
    obtain ⟨rfl, -⟩ := hw
    rw [Disk.walk]
  | cons part parts ih =>
    obtain ⟨hfolder, hpart, hrest⟩ := walk_cons_eq_ok_iff.1 hw
    exact walk_cons_eq_ok_iff.2 ⟨h.root.isFolder _ hfolder, hpart, ih hrest⟩

theorem walk_start_of_locate {r : Location × Option Tree} (h : d.locate p = .ok r) :
    d.walk (d.start p).reverse (d.get? (d.start p).reverse.reverse) p.parts = .ok r := by
  rw [List.reverse_reverse]
  exact walk_of_locate h

/-- A path leads where it led. -/
theorem Grows.locate (h : Grows d d') (hp : d.locate p = .ok (place, t)) :
    d'.locate p = .ok (place, d'.get? place) := by
  have hstart : d'.start p = d.start p := by rw [start, start, h.home_eq]
  have hwalk := h.walk (walk_start_of_locate hp)
  rw [List.reverse_reverse] at hwalk
  rw [Disk.locate, walkParts] at hp ⊢
  split at hp
  · cases hp
  · rename_i htext
    rw [if_neg htext, hstart]
    split at hp
    · cases hp
    · exact hwalk

/-- Making something where nothing is leaves all that there is in its place. -/
theorem grows_put (hparent : d.IsFolderAt q) {name : String} (hnone : d.get? (q ++ [name]) = none)
    (t : Tree) : Grows d (d.put (q ++ [name]) (some t)) := by
  have hbelow : ∀ rest, d.get? (q ++ [name] ++ rest) = none := by
    intro rest
    rw [get?_append, hnone, Tree.get?_none]
  refine ⟨rfl, fun x hx => ?_, fun x n hx => ?_⟩
  · change d.IsFolderAt x at hx
    show (d.put (q ++ [name]) (some t)).IsFolderAt x
    rcases get?_put_cases hparent name (some t) x with ⟨rest, rfl⟩ | hfolder | hsame
    · rw [IsFolderAt, hbelow] at hx
      exact hx.elim
    · exact hfolder
    · rwa [IsFolderAt, hsame]
  · change d.get? x = some (.file n) at hx
    show (d.put (q ++ [name]) (some t)).get? x = some (.file n)
    rcases prefix_or_differ x (q ++ [name]) with ⟨rest, hrest⟩ | ⟨rest, rfl⟩ | hdiff
    · -- Nothing lies below a file.
      rcases List.eq_nil_or_concat rest with rfl | ⟨rest, last, rfl⟩
      · rw [List.append_nil] at hrest
        rw [hrest, hnone] at hx
        cases hx
      · rw [List.concat_eq_append, ← List.append_assoc] at hrest
        obtain ⟨hq, -⟩ := List.append_inj' hrest rfl
        have hfolder : d.IsFolderAt x := isFolderAt_of_append (hq ▸ hparent)
        rw [IsFolderAt, hx] at hfolder
        exact hfolder.elim
    · rw [hbelow] at hx
      cases hx
    · obtain ⟨stem, a, b, rest, rest', hne, rfl, heq⟩ := hdiff
      rwa [get?_put_of_ne hparent heq hne]

theorem extends_makeFolders (root : Tree) (above names : List String) :
    Tree.Extends (some root) (some (makeFolders root above names).2) := by
  induction names generalizing root above with
  | nil => exact Tree.extends_makeFolders root above.reverse
  | cons name names ih =>
    rw [makeFolders]
    split
    · have hmade := Tree.extends_makeFolders root above.reverse
      split
      · rename_i hresult
        rwa [hresult] at hmade
      · rename_i hresult
        rw [hresult] at hmade
        exact hmade.trans (ih _ above.tail)
    · exact ih root (name :: above)

/-- Making folders leaves all that there is in its place, also where it fails. -/
theorem grows_createFolders (d : Disk) (p : Path) :
    Grows d (d.createFolders p).2 ∧ (d.createFolders p).2.contents = d.contents := by
  rw [createFolders, call]
  split
  · exact ⟨grows_tick d, rfl⟩
  · dsimp only
    split
    · exact ⟨grows_tick d, rfl⟩
    · split
      · exact ⟨⟨rfl, extends_makeFolders ..⟩, rfl⟩
      · exact ⟨⟨rfl, extends_makeFolders ..⟩, rfl⟩

/-! ## Files -/

/-- The number of the file that a path leads to. -/
def fileAt? (d : Disk) (p : Path) : Option Nat :=
  match d.lookup p with
  | .ok (_, .file n) => some n
  | _ => none

theorem fileAt?_eq_some_iff (hp : p.isForFolder = false) :
    d.fileAt? p = some n ↔ ∃ place, d.locate p = .ok (place, some (.file n)) := by
  rw [fileAt?, lookup]
  cases d.locate p with
  | error e => simp
  | ok found =>
    obtain ⟨place, t⟩ := found
    cases t with
    | none => simp
    | some t =>
      cases t with
      | file m => simp [hp]
      | folder entries => simp

theorem Grows.fileAt? (h : Grows d d') (hp : p.isForFolder = false) (hfile : d.fileAt? p = some n) :
    d'.fileAt? p = some n := by
  obtain ⟨place, hlocate⟩ := (fileAt?_eq_some_iff hp).1 hfile
  have hget : d.get? place = some (.file n) := walk_eq_get? rfl (walk_start_of_locate hlocate)
  have hget' : d'.get? place = some (.file n) := h.root.file place n hget
  exact (fileAt?_eq_some_iff hp).2 ⟨place, hget' ▸ h.locate hlocate⟩

/-- A file that is made where a path leads is the one that the path leads to then. -/
theorem fileAt?_addFile (hp : p.isForFolder = false) (hparts : p.parts ≠ [])
    (hlocate : d.locate p = .ok (place, none)) :
    Grows d (d.tick.addFile place).2 ∧ (d.tick.addFile place).2.fileAt? p = some d.contents.next := by
  have hnone : d.get? place = none := walk_eq_get? rfl (walk_start_of_locate hlocate)
  obtain ⟨q, name, rfl, hparent⟩ := exists_parent_of_walk hparts (walk_start_of_locate hlocate)
  have hput := grows_put hparent hnone (.file d.contents.next)
  have hgrows : Grows d (d.tick.addFile (q ++ [name])).2 := ⟨hput.home_eq, hput.root⟩
  refine ⟨hgrows, (fileAt?_eq_some_iff hp).2 ⟨q ++ [name], ?_⟩⟩
  have hmade : (d.tick.addFile (q ++ [name])).2.get? (q ++ [name]) = some (.file d.contents.next) :=
    get?_put_self (d := d.tick) hparent name _
  rw [hgrows.locate hlocate, hmade]

/-- Opening a file fails and changes nothing, or the path leads to the file that is opened, which is made
if there was none. -/
theorem openFile_cases (hp : p.isForFolder = false) (hparts : p.parts ≠ []) (create : Bool) :
    (∃ e, d.openFile p create = (.error e, d.tick)) ∨
    ∃ n d', d.openFile p create = (.ok n, d') ∧ d'.fileAt? p = some n ∧ Grows d d' ∧
      ∀ m, d.fileAt? p = some m → d'.contents = d.contents := by
  cases hfault : d.faults d.calls with
  | some fault => exact .inl ⟨fault.error, by rw [openFile, call, hfault]; rfl⟩
  | none =>
    rw [openFile_eq hfault hp]
    cases hlocate : d.locate p with
    | error e => exact .inl ⟨e, rfl⟩
    | ok found =>
      obtain ⟨place, t⟩ := found
      cases t with
      | some t =>
        cases t with
        | folder entries => exact .inl ⟨_, rfl⟩
        | file n =>
          have hfile := (fileAt?_eq_some_iff hp).2 ⟨place, hlocate⟩
          exact .inr ⟨n, _, rfl, (grows_tick d).fileAt? hp hfile, grows_tick d, fun _ _ => rfl⟩
      | none =>
        cases create with
        | false => exact .inl ⟨_, rfl⟩
        | true =>
          obtain ⟨hgrows, hmade⟩ := fileAt?_addFile hp hparts hlocate
          refine .inr ⟨_, _, rfl, hmade, hgrows, fun m hm => ?_⟩
          rw [fileAt?, lookup, hlocate] at hm
          cases hm

/-- A write writes the first bytes: all of them, unless it fails. -/
theorem disk_writeAt (d : Disk) (n offset : Nat) (data : List UInt8) : ∃ calls k,
    (d.writeAt n offset data).2 = { d with
      calls, contents := d.contents.set n ((d.contents.get n).write offset (data.take k)) } := by
  rw [writeAt]
  split
  · exact ⟨d.calls, 0, by simp⟩
  · split
    · exact ⟨_, _, rfl⟩
    · dsimp only
      split
      · exact ⟨d.calls + 1, 0, by simp⟩
      · exact ⟨d.calls + 1, data.length, by simp⟩

theorem writeAt_of_ok (hdata : data ≠ []) (h : (d.writeAt n offset data).1 = .ok ()) :
    d.exceeds (offset + data.length) = false ∧ (d.writeAt n offset data).2 = { d with
      calls := d.calls + 1, contents := d.contents.set n ((d.contents.get n).write offset data) } := by
  rw [writeAt, if_neg hdata] at h ⊢
  split at h
  · cases h
  · rename_i hfault
    dsimp only at h ⊢
    split at h
    · cases h
    · rename_i hexceeds
      rw [if_neg hexceeds]
      exact ⟨Bool.not_eq_true _ ▸ hexceeds, rfl⟩

/-- Reading changes nothing. -/
theorem disk_readAt (d : Disk) (n offset size : Nat) :
    ∃ calls, (d.readAt n offset size).2 = { d with calls } := by
  rw [readAt]
  split
  · exact ⟨d.calls, rfl⟩
  · refine ⟨d.calls + 1, ?_⟩
    rw [call]
    split
    · rfl
    · dsimp only
      split
      · rfl
      · split <;> rfl

end Disk

end StatefulPages
