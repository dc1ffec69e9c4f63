import StatefulPages.Proofs.Disk.Calls

/-!
# Changes under one name of a folder

`Disk.ChangesIn` says that two disks differ, below a folder, only in what the folder has under one
name: other names lead where they did, and files that are not under the name keep their bytes.

The files below a folder are `Disk.Separate` if no two names lead to the same file. Changes under one
name keep them separate, since files that are made are new ones.
-/

namespace StatefulPages.Disk

variable {d d' d'' : Disk} {place above : Location} {root : Path} {name other last : String}
  {t : Option Tree} {n : Nat}

/-- What may have changed on a disk when only what `place` has under a name was worked on. -/
structure ChangesIn (place : Location) (name : String) (d d' : Disk) : Prop where
  rooted : ∀ root, d.Rooted root place → d'.Rooted root place
  get?_eq : ∀ other rest, other ≠ name →
    d'.get? (place ++ other :: rest) = d.get? (place ++ other :: rest)
  next_le : d.contents.next ≤ d'.contents.next
  /-- Files under the name were there, or are new. -/
  file_cases : ∀ rest n, d'.get? (place ++ name :: rest) = some (.file n) →
    (∃ rest, d.get? (place ++ name :: rest) = some (.file n)) ∨
      (d.contents.next ≤ n ∧ n < d'.contents.next)
  contents_eq : ∀ n < d.contents.next,
    (∀ rest, d.get? (place ++ name :: rest) ≠ some (.file n)) →
      d'.contents.get n = d.contents.get n

theorem ChangesIn.refl (place : Location) (name : String) (d : Disk) :
    ChangesIn place name d d where
  rooted := fun _ h => h
  get?_eq := fun _ _ _ => rfl
  next_le := Nat.le_refl _
  file_cases := fun rest _ h => .inl ⟨rest, h⟩
  contents_eq := fun _ _ _ => rfl

theorem ChangesIn.trans (h : ChangesIn place name d d') (h' : ChangesIn place name d' d'') :
    ChangesIn place name d d'' where
  rooted := fun root hr => h'.rooted root (h.rooted root hr)
  get?_eq := fun other rest hne => (h'.get?_eq other rest hne).trans (h.get?_eq other rest hne)
  next_le := Nat.le_trans h.next_le h'.next_le
  file_cases := by
    intro rest n hn
    have hle := h'.next_le
    rcases h'.file_cases rest n hn with ⟨rest', hold⟩ | hnew
    · rcases h.file_cases rest' n hold with hold | hnew
      · exact .inl hold
      · exact .inr ⟨hnew.1, by omega⟩
    · exact .inr ⟨Nat.le_trans h.next_le hnew.1, hnew.2⟩
  contents_eq := by
    intro n hn hno
    rw [h'.contents_eq n (Nat.lt_of_lt_of_le hn h.next_le), h.contents_eq n hn hno]
    intro rest hrest
    rcases h.file_cases rest n hrest with ⟨rest', hold⟩ | hnew
    · exact hno rest' hold
    · omega

theorem ChangesIn.tick (place : Location) (name : String) (d : Disk) :
    ChangesIn place name d d.tick :=
  { ChangesIn.refl place name d with rooted := fun _ h => h.tick }

/-- Putting something under the name, in which all files are new. -/
theorem ChangesIn.put (habove : d.IsFolderAt above) (below : Location)
    (heq : above ++ [last] = place ++ name :: below) {contents : Heap Content}
    (hnext : d.contents.next ≤ contents.next)
    (hcontents : ∀ n < d.contents.next, contents.get n = d.contents.get n)
    (hfile : ∀ rest n, Tree.get? t rest = some (.file n) →
      d.contents.next ≤ n ∧ n < contents.next) :
    ChangesIn place name d { d.put (above ++ [last]) t with contents } where
  rooted := fun _ h => (h.put habove heq t).withContents contents
  get?_eq := fun _ rest hne => get?_put_of_ne habove heq hne t rest
  next_le := hnext
  file_cases := by
    intro rest n hn
    change (d.put (above ++ [last]) t).get? (place ++ name :: rest) = some (.file n) at hn
    rcases get?_put_cases habove last t (place ++ name :: rest) with ⟨more, hq⟩ | hfolder | hsame
    · rw [hq, get?_put_append habove] at hn
      exact .inr (hfile more n hn)
    · rw [IsFolderAt, hn] at hfolder
      exact hfolder.elim
    · exact .inl ⟨rest, hsame ▸ hn⟩
  contents_eq := fun n hn _ => hcontents n hn

/-- Deleting what is under the name. -/
theorem ChangesIn.put_none (h : d.IsFolderAt place) (name : String) :
    ChangesIn place name d (d.put (place ++ [name]) none) := by
  refine ChangesIn.put h [] rfl (Nat.le_refl _) (fun _ _ => rfl) fun rest n hn => ?_
  rw [Tree.get?_none] at hn
  cases hn

/-- Making an empty folder under the name. -/
theorem ChangesIn.put_empty (h : d.IsFolderAt place) (name : String) :
    ChangesIn place name d (d.put (place ++ [name]) (some .empty)) := by
  refine ChangesIn.put h [] rfl (Nat.le_refl _) (fun _ _ => rfl) fun rest n hn => ?_
  cases rest with
  | nil => cases hn
  | cons x rest =>
    have hnone : Tree.get? (some .empty) (x :: rest) = none := Tree.get?_none rest
    rw [hnone] at hn
    cases hn

/-- Making a file under the name. -/
theorem ChangesIn.addFile (habove : d.IsFolderAt above) {below : Location}
    (heq : above ++ [last] = place ++ name :: below) :
    ChangesIn place name d (d.addFile (above ++ [last])).2 := by
  refine ChangesIn.put habove _ heq (Nat.le_succ _) (fun n hn => ?_) fun rest n hn => ?_
  · exact Heap.get_add_of_lt _ _ hn
  · cases rest with
    | nil =>
      cases hn
      exact ⟨Nat.le_refl _, Nat.lt_succ_self _⟩
    | cons x rest => cases hn

/-- Changing the bytes of a file under the name. -/
theorem ChangesIn.setContent {rest : Location}
    (h : d.get? (place ++ name :: rest) = some (.file n)) (c : Content) :
    ChangesIn place name d { d with contents := d.contents.set n c } where
  rooted := fun _ h => h.withContents _
  get?_eq := fun _ _ _ => rfl
  next_le := Nat.le_refl _
  file_cases := fun rest _ hn => .inl ⟨rest, hn⟩
  contents_eq := by
    intro m _ hno
    have hne : m ≠ n := by
      intro heq
      exact hno rest (heq ▸ h)
    exact Heap.get_set_of_ne _ _ hne

/-! ## Separate files -/

/-- Indicates that no two names of a folder lead to the same file, and that no new file will be one
of those that there are. -/
structure Separate (place : Location) (d : Disk) : Prop where
  file_lt : ∀ name rest n, d.get? (place ++ name :: rest) = some (.file n) → n < d.contents.next
  name_eq : ∀ name other rest rest' n, d.get? (place ++ name :: rest) = some (.file n) →
    d.get? (place ++ other :: rest') = some (.file n) → name = other

theorem Separate.changesIn (h : Separate place d) (hc : ChangesIn place name d d') :
    Separate place d' := by
  have hle := hc.next_le
  -- A file under the changed name is one that was there, or a new one.
  have hcases : ∀ x rest n, d'.get? (place ++ x :: rest) = some (.file n) →
      (∃ rest, d.get? (place ++ x :: rest) = some (.file n)) ∨
        (x = name ∧ d.contents.next ≤ n ∧ n < d'.contents.next) := by
    intro x rest n hn
    by_cases hx : x = name
    · subst hx
      rcases hc.file_cases rest n hn with hold | hnew
      · exact .inl hold
      · exact .inr ⟨rfl, hnew⟩
    · exact .inl ⟨rest, (hc.get?_eq x rest hx).symm.trans hn⟩
  refine ⟨fun x rest n hn => ?_, fun x y rest rest' n hx hy => ?_⟩
  · rcases hcases x rest n hn with ⟨rest', hold⟩ | hnew
    · exact Nat.lt_of_lt_of_le (h.file_lt x rest' n hold) hle
    · exact hnew.2.2
  · rcases hcases x rest n hx with ⟨restx, hxold⟩ | hxnew
    · rcases hcases y rest' n hy with ⟨resty, hyold⟩ | hynew
      · exact h.name_eq x y restx resty n hxold hyold
      · have := h.file_lt x restx n hxold
        omega
    · rcases hcases y rest' n hy with ⟨resty, hyold⟩ | hynew
      · have := h.file_lt y resty n hyold
        omega
      · exact hxnew.1.trans hynew.1.symm

/-- The bytes of the file at a location, none if there is no file. -/
def contentAt (d : Disk) (q : Location) : Content :=
  match d.get? q with
  | some (.file n) => d.contents.get n
  | _ => .empty

theorem contentAt_of_file {q : Location} (h : d.get? q = some (.file n)) :
    d.contentAt q = d.contents.get n := by
  rw [contentAt, h]

theorem contentAt_setContent {q : Location} (h : d.get? q = some (.file n)) (c : Content) :
    ({ d with contents := d.contents.set n c } : Disk).contentAt q = c := by
  have h' : ({ d with contents := d.contents.set n c } : Disk).get? q = some (.file n) := h
  rw [contentAt_of_file h']
  exact Heap.get_set_self ..

/-- All bytes of a file that is missing are written. -/
theorem writeAll_of_none (h : d.Rooted root place) {p : Path} (hp : Path.Below root p [name])
    (hnone : d.get? (place ++ [name]) = none) {data : List UInt8} (hdata : data ≠ []) :
    ∃ n d', d.writeAll p data = (.ok (), d') ∧ ChangesIn place name d d' ∧
      d'.get? (place ++ [name]) = some (.file n) ∧ (d'.contents.get n).toList = data := by
  have hplace : place ++ [] = place := List.append_nil place
  have hopen := openFile_of_none [] h hp (hplace.symm ▸ h.isFolderAt) (by rwa [hplace])
  rw [hplace] at hopen
  let opened : Disk := (d.tick.addFile (place ++ [name])).2
  have hthere : opened.get? (place ++ [name]) = some (.file d.contents.next) :=
    get?_put_self (d := d.tick) h.isFolderAt name _
  have hadded : ChangesIn place name d opened :=
    (ChangesIn.tick place name d).trans (.addFile (d := d.tick) h.isFolderAt rfl)
  let emptied : Disk := { opened with contents := opened.contents.set d.contents.next .empty }
  have hemptied : ChangesIn place name d emptied :=
    hadded.trans (.setContent (d := opened) hthere .empty)
  have hget : emptied.contents.get d.contents.next = .empty := Heap.get_set_self ..
  have hwrite := writeAt_of_sound (d := emptied) (hemptied.rooted root h).sound d.contents.next 0 hdata
  rw [hget] at hwrite
  let written : Disk := { emptied.tick with
    contents := emptied.contents.set d.contents.next (.ofList data) }
  have hwritten : ChangesIn place name d written :=
    (hemptied.trans (.tick ..)).trans (.setContent (d := emptied.tick) hthere _)
  refine ⟨d.contents.next, written, ?_, hwritten, hthere, ?_⟩
  · rw [writeAll, hopen]
    exact hwrite
  · exact (congrArg Content.toList (Heap.get_set_self ..)).trans (Content.toList_ofList hdata)

/-- Changes under one name leave the bytes under the others alone. -/
theorem contentAt_changesIn (h : Separate place d) (hc : ChangesIn place name d d')
    (hne : other ≠ name) (rest : Location) :
    d'.contentAt (place ++ other :: rest) = d.contentAt (place ++ other :: rest) := by
  rw [contentAt, contentAt, hc.get?_eq other rest hne]
  cases hq : d.get? (place ++ other :: rest) with
  | none => rfl
  | some t =>
    cases t with
    | folder entries => rfl
    | file n =>
      refine hc.contents_eq n (h.file_lt other rest n hq) fun rest' hrest' => hne ?_
      exact h.name_eq other name rest rest' n hq hrest'

end StatefulPages.Disk
