import StatefulPages.Storage.FilePool

/-!
# The files that a pool holds

Which file a pool holds open at a path (`FilePool.Has`), and how that changes: what is borrowed was
held already or has just been opened, and closing files to make room only takes files away.
-/

namespace StatefulPages

namespace FilePool

variable {pool pool' : FilePool} {p q : Path} {n m : Nat} {c : Channel}

/-- Indicates that the file with a number is held open at a path. -/
def Has (pool : FilePool) (p : Path) (n : Nat) : Prop :=
  ∃ f ∈ pool.files, f.path = p ∧ f.handle.file = n

@[simp] theorem has_tick : pool.tick.Has p n ↔ pool.Has p n := Iff.rfl

theorem has_modify {change : PooledFile → PooledFile}
    (hpath : ∀ f, (change f).path = f.path) (hhandle : ∀ f, (change f).handle = f.handle) :
    (pool.modify q change).Has p n ↔ pool.Has p n := by
  have hsame : ∀ f : PooledFile, (if f.path.isSame q then change f else f).path = f.path ∧
      (if f.path.isSame q then change f else f).handle = f.handle := by
    intro f
    split
    · exact ⟨hpath f, hhandle f⟩
    · exact ⟨rfl, rfl⟩
  simp only [Has, modify, List.mem_map]
  constructor
  · intro ⟨g, ⟨f, hf, hg⟩, hgp, hgn⟩
    rw [← hg, (hsame f).1] at hgp
    rw [← hg, (hsame f).2] at hgn
    exact ⟨f, hf, hgp, hgn⟩
  · intro ⟨f, hf, hfp, hfn⟩
    exact ⟨_, ⟨f, hf, rfl⟩, (hsame f).1.trans hfp, (congrArg Handle.file (hsame f).2).trans hfn⟩

@[simp] theorem has_giveBack : (pool.giveBack c).Has p n ↔ pool.Has p n := by
  rw [giveBack, has_modify, has_tick]
  · intro f
    split <;> rfl
  · intro f
    split <;> rfl

theorem has_close : (pool.close q).Has p n ↔ pool.Has p n ∧ p.isSame q = false := by
  simp only [Has, close, List.mem_filter, Bool.not_eq_true']
  constructor
  · intro ⟨f, ⟨hf, hne⟩, hfp, hfn⟩
    exact ⟨⟨f, hf, hfp, hfn⟩, hfp ▸ hne⟩
  · intro ⟨⟨f, hf, hfp, hfn⟩, hne⟩
    exact ⟨f, ⟨hf, hfp.symm ▸ hne⟩, hfp, hfn⟩

theorem not_has_ofCapacity (capacity : Nat) : ¬ (ofCapacity capacity).Has p n := by
  simp [Has, ofCapacity]

theorem find?_eq_none_iff : pool.find? p = none ↔ ∀ f ∈ pool.files, f.path.isSame p = false := by
  simp [find?]

theorem mem_and_isSame_of_find? {f : PooledFile} (h : pool.find? p = some f) :
    f ∈ pool.files ∧ f.path.isSame p = true :=
  ⟨List.mem_of_find?_eq_some h, by simpa using List.find?_some h⟩

theorem exists_find?_of_has (h : pool.Has q n) (hsame : q.isSame p = true) :
    ∃ f, pool.find? p = some f := by
  obtain ⟨f, hf, rfl, -⟩ := h
  cases hfind : pool.find? p with
  | some f => exact ⟨f, rfl⟩
  | none => exact absurd hsame (Bool.eq_false_iff.1 (find?_eq_none_iff.1 hfind f hf))

theorem leastRecent?_eq_none_iff {files : List PooledFile} : leastRecent? files = none ↔ files = [] := by
  cases files with
  | nil => simp [leastRecent?]
  | cons f files =>
    rw [leastRecent?]
    split
    · split <;> simp
    · simp

/-- The file used the longest time ago is one of the files, and no other one was used before it. -/
theorem leastRecent?_eq_some {files : List PooledFile} {f : PooledFile}
    (h : leastRecent? files = some f) : f ∈ files ∧ ∀ g ∈ files, f.lastUsed ≤ g.lastUsed := by
  induction files generalizing f with
  | nil => cases h
  | cons k files ih =>
    rw [leastRecent?] at h
    split at h
    · rename_i g hg
      obtain ⟨hmem, hle⟩ := ih hg
      split at h
      · rename_i hk
        cases h
        exact ⟨List.mem_cons_self, List.forall_mem_cons.2
          ⟨Nat.le_refl _, fun x hx => Nat.le_trans hk (hle x hx)⟩⟩
      · rename_i hk
        cases h
        exact ⟨List.mem_cons_of_mem _ hmem, List.forall_mem_cons.2
          ⟨Nat.le_of_lt (Nat.lt_of_not_le hk), hle⟩⟩
    · rename_i hnone
      cases h
      refine ⟨List.mem_cons_self, List.forall_mem_cons.2 ⟨Nat.le_refl _, fun x hx => ?_⟩⟩
      rw [leastRecent?_eq_none_iff.1 hnone] at hx
      cases hx

theorem closeIdle_sublist (capacity k : Nat) (files : List PooledFile) :
    (closeIdle capacity k files).Sublist files := by
  induction k generalizing files with
  | zero => exact List.Sublist.refl _
  | succ k ih =>
    rw [closeIdle]
    split
    · exact List.Sublist.refl _
    · split
      · exact (ih _).trans List.erase_sublist
      · exact List.Sublist.refl _

/-- A file that is borrowed does not make way for another one. -/
theorem mem_closeIdle_of_borrowed {capacity k : Nat} {files : List PooledFile} {f : PooledFile}
    (hf : f ∈ files) (hborrowed : f.borrows ≠ 0) : f ∈ closeIdle capacity k files := by
  induction k generalizing files with
  | zero => exact hf
  | succ k ih =>
    rw [closeIdle]
    split
    · exact hf
    · split
      · rename_i g hg
        have hidle : g.borrows = 0 := by simpa using (List.mem_filter.1 (leastRecent?_eq_some hg).1).2
        have hne : f ≠ g := fun heq => hborrowed (heq ▸ hidle)
        exact ih ((List.mem_erase_of_ne hne).2 hf)
      · exact hf

theorem has_of_lend (h : (pool.lend p n).2.Has q m) : pool.Has q m ∨ (q = p ∧ m = n) := by
  obtain ⟨f, hf, hfp, hfn⟩ := h
  rcases List.mem_cons.1 hf with hf | hf
  · rw [hf] at hfp hfn
    exact .inr ⟨hfp.symm, hfn.symm⟩
  · exact .inl ⟨f, (closeIdle_sublist _ _ _).mem hf, hfp, hfn⟩

theorem has_lend (pool : FilePool) (p : Path) (n : Nat) : (pool.lend p n).2.Has p n :=
  ⟨_, List.mem_cons_self, rfl, rfl⟩

/-- What is borrowed without being opened is a file that is held. -/
theorem has_of_borrow? (h : pool.borrow? p = some (c, pool')) :
    (∃ q, q.isSame p = true ∧ pool.Has q c.handle.file) ∧
      ∀ q m, pool'.Has q m ↔ pool.Has q m := by
  obtain ⟨f, hf, heq⟩ := Option.map_eq_some_iff.1 h
  rw [Prod.mk.injEq] at heq
  obtain ⟨hc, hpool⟩ := heq
  obtain ⟨hmem, hsame⟩ := mem_and_isSame_of_find? hf
  refine ⟨⟨f.path, hsame, f, hmem, rfl, by rw [← hc]⟩, fun q m => ?_⟩
  rw [← hpool, has_modify]
  · intro f
    rfl
  · intro f
    rfl

end FilePool

namespace Files

variable {files : Files} {p : Path} {n : Nat} {writing : Bool} {disk : Disk} {f : PooledFile}

/-- A file that is open is lent once more. -/
theorem borrow_of_find (h : files.pool.find? p = some f) (writing : Bool) :
    files.borrow p writing = (.ok (some { path := p, handle := f.handle }), { files with
      pool := files.pool.tick.modify p fun f =>
        { f with borrows := f.borrows + 1, lastUsed := files.pool.tick.time } }) := by
  have hborrow : files.pool.tick.borrow? p = some ({ path := p, handle := f.handle },
      files.pool.tick.modify p fun f =>
        { f with borrows := f.borrows + 1, lastUsed := files.pool.tick.time }) := by
    rw [FilePool.borrow?, show files.pool.tick.find? p = some f from h, Option.map_some]
  rw [borrow]
  dsimp only
  rw [hborrow]

theorem borrow_of_none (h : files.pool.find? p = none) (writing : Bool) :
    files.borrow p writing = match files.disk.openFile p writing with
      | (.ok n, disk) => (.ok (some (files.pool.tick.tick.lend p n).1),
          { pool := (files.pool.tick.tick.lend p n).2, disk })
      | (.error e, disk) =>
        (if !writing ∧ e = .notFound then .ok none else .error e,
          { pool := files.pool.tick, disk }) := by
  have hborrow : files.pool.tick.borrow? p = none := by
    rw [FilePool.borrow?, show files.pool.tick.find? p = none from h, Option.map_none]
  rw [borrow]
  dsimp only
  rw [hborrow]
  dsimp only
  obtain ⟨result, disk⟩ := files.disk.openFile p writing
  cases result with
  | ok n => rfl
  | error e =>
    dsimp only
    by_cases hmissing : !writing ∧ e = .notFound
    · rw [if_pos hmissing, if_pos hmissing]
    · rw [if_neg hmissing, if_neg hmissing]

/-- Another file is lent if it can be opened; otherwise the pool has only been used. -/
theorem borrow_cases_of_none (h : files.pool.find? p = none) (writing : Bool) :
    (∃ n disk, files.borrow p writing = (.ok (some (files.pool.tick.tick.lend p n).1),
        { pool := (files.pool.tick.tick.lend p n).2, disk })) ∨
    ∃ result disk, (∀ c, result ≠ .ok (some c)) ∧
      files.borrow p writing = (result, { pool := files.pool.tick, disk }) := by
  rw [borrow_of_none h]
  split
  · exact .inl ⟨_, _, rfl⟩
  · refine .inr ⟨_, _, fun c => ?_, rfl⟩
    split <;> simp

/-- What borrowing a file does: either the pool holds it open, or it is opened and put into the
pool. -/
theorem borrow_cases (hopen : files.disk.openFile p writing = (.ok n, disk)) :
    ∃ c files', files.borrow p writing = (.ok (some c), files') ∧
      ((files'.disk = files.disk ∧
          (∃ q, q.isSame p = true ∧ files.pool.Has q c.handle.file) ∧
          ∀ q m, files'.pool.Has q m ↔ files.pool.Has q m) ∨
        (files'.disk = disk ∧ c.handle.file = n ∧
          ∀ q m, files'.pool.Has q m → files.pool.Has q m ∨ (q = p ∧ m = n))) := by
  rw [borrow]
  dsimp only
  split
  · rename_i c pool hborrow
    obtain ⟨hheld, hkept⟩ := FilePool.has_of_borrow? hborrow
    exact ⟨c, { files with pool }, rfl, .inl ⟨rfl, hheld, hkept⟩⟩
  · rw [hopen]
    refine ⟨_, _, rfl, .inr ⟨rfl, rfl, fun q m hq => ?_⟩⟩
    exact (FilePool.has_of_lend hq : files.pool.tick.tick.Has q m ∨ _)

end Files

end StatefulPages
