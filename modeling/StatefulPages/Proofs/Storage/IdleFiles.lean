import Mathlib.Algebra.GroupWithZero.Nat
import Mathlib.Data.List.Perm.Subperm
import Mathlib.Order.Bounds.Defs
import StatefulPages.Proofs.Storage.PoolUse

/-!
# Which files make way for another one

`FilePool.closeIdle` closes the idle files that were used the longest time ago, no more than needed
(`closeIdle_spec`), in whatever order they are listed (`closeIdle_perm`). The times of a pool in use
tell its files apart and follow the order of their uses (`PoolUse.Timed`), so that

* `PoolUse.run_closes_least_recent`: whenever a file is opened, those of the idle files are closed
  whose last uses are the longest ago, as many as there have to be.
-/

namespace StatefulPages

/-- A list consists of a part of it and of the elements that are not in that part. -/
theorem length_filter_notMem_of_sublist {α : Type} [DecidableEq α] {xs part : List α}
    (h : part.Sublist xs) (hnodup : xs.Nodup) :
    (xs.filter (· ∉ part)).length + part.length = xs.length := by
  have hperm : (part ++ xs.diff part).Perm xs :=
    List.subperm_append_diff_self_of_count_le fun x _ => h.count_le x
  rw [← hnodup.sdiff_eq_filter, ← hperm.length_eq, List.length_append, Nat.add_comm]

namespace FilePool

variable {files others : List PooledFile} {f : PooledFile} {capacity k : Nat}

/-- The number of idle files. -/
def idleCount (files : List PooledFile) : Nat :=
  files.countP (·.borrows = 0)

/-- The file used the longest time ago does not depend on the order of the files. -/
theorem leastRecent?_perm (h : files.Perm others) (hused : (files.map (·.lastUsed)).Nodup) :
    leastRecent? files = leastRecent? others := by
  cases hf : leastRecent? files with
  | none =>
    rw [leastRecent?_eq_none_iff] at hf
    rw [hf] at h
    rw [← h.nil_eq]
    rfl
  | some f =>
    cases hg : leastRecent? others with
    | none =>
      rw [leastRecent?_eq_none_iff] at hg
      rw [hg] at h
      rw [h.eq_nil] at hf
      cases hf
    | some g =>
      obtain ⟨hfm, hfle⟩ := leastRecent?_eq_some hf
      obtain ⟨hgm, hgle⟩ := leastRecent?_eq_some hg
      have hgm' := h.mem_iff.2 hgm
      rw [List.inj_on_of_nodup_map hused hfm hgm'
        (Nat.le_antisymm (hfle g hgm') (hgle f (h.mem_iff.1 hfm)))]

/-- Which files are closed does not depend on their order. -/
theorem closeIdle_perm (h : files.Perm others) (hused : (files.map (·.lastUsed)).Nodup) :
    (closeIdle capacity k files).Perm (closeIdle capacity k others) := by
  induction k generalizing files others with
  | zero => exact h
  | succ k ih =>
    rw [closeIdle, closeIdle, h.length_eq,
      leastRecent?_perm (h.filter _) (hused.sublist (List.filter_sublist.map _))]
    split
    · exact h
    · split
      · exact ih (h.erase _) (hused.sublist (List.erase_sublist.map _))
      · exact h

/-- The files that are closed are idle, were used before all idle files that stay open, and are as
many as have to make way for one more file, if there are so many. If not, then no idle file stays
open. -/
theorem closeIdle_spec (capacity : Nat) (hk : files.length ≤ k)
    (hused : (files.map (·.lastUsed)).Nodup) :
    (∀ f ∈ files, f ∉ closeIdle capacity k files → f.borrows = 0 ∧
      ∀ g ∈ closeIdle capacity k files, g.borrows = 0 → f.lastUsed < g.lastUsed) ∧
    (closeIdle capacity k files).length + min (files.length + 1 - capacity) (idleCount files) =
      files.length ∧
    ((closeIdle capacity k files).length < capacity ∨
      ∀ f ∈ closeIdle capacity k files, 0 < f.borrows) := by
  induction k generalizing files with
  | zero =>
    rw [List.eq_nil_of_length_eq_zero (Nat.le_zero.1 hk)]
    simp [closeIdle, idleCount]
  | succ k ih =>
    rw [closeIdle]
    split
    · rename_i hroom
      exact ⟨fun f hf hnot => absurd hf hnot, by omega, .inl hroom⟩
    · rename_i hfull
      split
      · rename_i f hf
        obtain ⟨hmem, hle⟩ := leastRecent?_eq_some hf
        obtain ⟨hfm, hidle⟩ := List.mem_filter.1 hmem
        have hpos := List.length_pos_of_mem hfm
        have hlength := List.length_erase_of_mem hfm
        have hcount : idleCount files = idleCount (files.erase f) + 1 := by
          rw [idleCount, (List.perm_cons_erase hfm).countP_eq, List.countP_cons, if_pos hidle]
          rfl
        have hk' : (files.erase f).length ≤ k := by omega
        obtain ⟨hclosed, hsum, hends⟩ := ih hk' (hused.sublist (List.erase_sublist.map _))
        refine ⟨fun x hx hnot => ?_, by omega, hends⟩
        by_cases hxf : x = f
        · rw [hxf]
          refine ⟨by simpa using hidle, fun g hg hgidle => ?_⟩
          have hge := (closeIdle_sublist ..).mem hg
          obtain ⟨hne, hgm⟩ := (hused.of_map _).mem_erase_iff.1 hge
          refine Nat.lt_of_le_of_ne (hle g (List.mem_filter.2 ⟨hgm, by simpa using hgidle⟩)) ?_
          exact fun heq => hne (List.inj_on_of_nodup_map hused hgm hfm heq.symm)
        · exact hclosed x ((List.mem_erase_of_ne hxf).2 hx) hnot
      · rename_i hnone
        have hidle := leastRecent?_eq_none_iff.1 hnone
        have hzero : idleCount files = 0 := by
          rw [idleCount, List.countP_eq_length_filter, hidle]
          rfl
        refine ⟨fun f hf hnot => absurd hf hnot, by omega, .inr fun f hf => ?_⟩
        exact Nat.pos_of_ne_zero (by simpa using List.filter_eq_nil_iff.1 hidle f hf)

end FilePool

namespace PoolUse

variable {u u' : PoolUse}

/-! ## Times of use -/

/-- Indicates that the times of files tell them apart and are in the order of their last uses. -/
structure Timed (u : PoolUse) : Prop where
  lastUsed_le : ∀ f ∈ u.pool.files, f.lastUsed ≤ u.pool.time
  nodup_lastUsed : (u.pool.files.map (·.lastUsed)).Nodup
  handle_mem : ∀ f ∈ u.pool.files, f.handle ∈ u.uses
  idxOf_lt : ∀ f ∈ u.pool.files, ∀ g ∈ u.pool.files, f.lastUsed < g.lastUsed →
    u.uses.idxOf g.handle < u.uses.idxOf f.handle

theorem lastUsed_touch_of_eq {f : PooledFile} {h : Handle} (heq : f.handle = h)
    (count : Nat → Nat) (time : Nat) : (touch h count time f).lastUsed = time := by
  rw [touch, if_pos heq]

theorem lastUsed_touch_of_ne {f : PooledFile} {h : Handle} (hne : f.handle ≠ h)
    (count : Nat → Nat) (time : Nat) : (touch h count time f).lastUsed = f.lastUsed := by
  rw [touch, if_neg hne]

/-- A use of a handle is the last one. -/
theorem Timed.touch (hu : u.Timed) (ha : u.Accounted) {h : Handle} {count : Nat → Nat}
    (hfiles : u'.pool.files = u.pool.files.map (PoolUse.touch h count u'.pool.time))
    (htime : u.pool.time < u'.pool.time) (huses : u'.uses = h :: u.uses) : u'.Timed := by
  have hbefore : ∀ f ∈ u.pool.files, f.lastUsed < u'.pool.time := fun f hf =>
    Nat.lt_of_le_of_lt (hu.lastUsed_le f hf) htime
  have hmem : ∀ g ∈ u'.pool.files, ∃ f ∈ u.pool.files,
      PoolUse.touch h count u'.pool.time f = g := by
    rw [hfiles]
    exact fun g hg => List.mem_map.1 hg
  refine {
    lastUsed_le := fun g hg => ?_
    nodup_lastUsed := ?_
    handle_mem := fun g hg => ?_
    idxOf_lt := ?_ }
  · obtain ⟨f, hf, rfl⟩ := hmem g hg
    by_cases hfh : f.handle = h
    · exact Nat.le_of_eq (lastUsed_touch_of_eq hfh ..)
    · rw [lastUsed_touch_of_ne hfh]
      exact Nat.le_of_lt (hbefore f hf)
  · rw [hfiles, List.map_map]
    refine (ha.nodup_handle.of_map _).map_on fun f hf g hg heq => ?_
    dsimp only [Function.comp_apply] at heq
    by_cases hfh : f.handle = h <;> by_cases hgh : g.handle = h
    · exact ha.eq_of_handle hf hg (hfh.trans hgh.symm)
    · rw [lastUsed_touch_of_eq hfh, lastUsed_touch_of_ne hgh] at heq
      exact absurd heq.symm (Nat.ne_of_lt (hbefore g hg))
    · rw [lastUsed_touch_of_ne hfh, lastUsed_touch_of_eq hgh] at heq
      exact absurd heq (Nat.ne_of_lt (hbefore f hf))
    · rw [lastUsed_touch_of_ne hfh, lastUsed_touch_of_ne hgh] at heq
      exact List.inj_on_of_nodup_map hu.nodup_lastUsed hf hg heq
  · obtain ⟨f, hf, rfl⟩ := hmem g hg
    rw [handle_touch, huses]
    exact List.mem_cons_of_mem _ (hu.handle_mem f hf)
  · intro f' hf' g' hg' hlt
    obtain ⟨f, hf, rfl⟩ := hmem f' hf'
    obtain ⟨g, hg, rfl⟩ := hmem g' hg'
    rw [handle_touch, handle_touch, huses]
    by_cases hgh : g.handle = h
    · have hfh : f.handle ≠ h := fun hfh => by
        rw [lastUsed_touch_of_eq hfh, lastUsed_touch_of_eq hgh] at hlt
        exact Nat.lt_irrefl _ hlt
      rw [hgh, List.idxOf_cons_self, List.idxOf_cons_ne _ hfh.symm]
      exact Nat.succ_pos _
    · rw [lastUsed_touch_of_ne hgh] at hlt
      have hfh : f.handle ≠ h := fun hfh => by
        rw [lastUsed_touch_of_eq hfh] at hlt
        exact Nat.lt_asymm hlt (hbefore g hg)
      rw [lastUsed_touch_of_ne hfh] at hlt
      rw [List.idxOf_cons_ne _ hfh.symm, List.idxOf_cons_ne _ (Ne.symm hgh)]
      exact Nat.succ_lt_succ (hu.idxOf_lt f hf g hg hlt)

theorem Timed.moves (hu : u.Timed) (ha : u.Accounted) (h : Moves u u') : u'.Timed := by
  cases h with
  | keeps hfiles htime hopenings hlent huses =>
    exact {
      lastUsed_le := fun f hf => Nat.le_trans (hu.lastUsed_le f (hfiles.mem hf)) htime
      nodup_lastUsed := hu.nodup_lastUsed.sublist (hfiles.map _)
      handle_mem := fun f hf => huses ▸ hu.handle_mem f (hfiles.mem hf)
      idxOf_lt := fun f hf g hg => huses ▸ hu.idxOf_lt f (hfiles.mem hf) g (hfiles.mem hg) }
  | lends p f hf hsame hfiles htime hopenings hlent huses => exact hu.touch ha hfiles htime huses
  | opens p h kept hkept hnew hopening hfiles htime hopenings hlent huses =>
    have hbefore : ∀ {f}, f ∈ kept → f.lastUsed < u'.pool.time := fun hf =>
      Nat.lt_of_le_of_lt (hu.lastUsed_le _ (hkept.mem hf)) htime
    have hfresh : ∀ {f}, f ∈ kept → f.handle ≠ h := fun hf =>
      ha.handle_ne (hkept.mem hf) hopening
    refine {
      lastUsed_le := fun f hf => ?_
      nodup_lastUsed := ?_
      handle_mem := fun f hf => ?_
      idxOf_lt := ?_ }
    · rcases List.mem_cons.1 (hfiles ▸ hf) with rfl | hf
      · exact Nat.le_refl _
      · exact Nat.le_of_lt (hbefore hf)
    · rw [hfiles, List.map_cons, List.nodup_cons]
      refine ⟨fun hlast => ?_, hu.nodup_lastUsed.sublist (hkept.map _)⟩
      obtain ⟨f, hf, heq⟩ := List.mem_map.1 hlast
      exact absurd heq (Nat.ne_of_lt (hbefore hf))
    · rw [huses]
      rcases List.mem_cons.1 (hfiles ▸ hf) with rfl | hf
      · exact List.mem_cons_self
      · exact List.mem_cons_of_mem _ (hu.handle_mem f (hkept.mem hf))
    · intro f hf g hg hlt
      rw [huses]
      rcases List.mem_cons.1 (hfiles ▸ hf) with rfl | hf
      · rcases List.mem_cons.1 (hfiles ▸ hg) with rfl | hg
        · exact absurd hlt (Nat.lt_irrefl _)
        · exact absurd hlt (Nat.lt_asymm (hbefore hg))
      · rw [List.idxOf_cons_ne _ (hfresh hf).symm]
        rcases List.mem_cons.1 (hfiles ▸ hg) with rfl | hg
        · rw [List.idxOf_cons_self]
          exact Nat.succ_pos _
        · rw [List.idxOf_cons_ne _ (hfresh hg).symm]
          exact Nat.succ_lt_succ (hu.idxOf_lt f (hkept.mem hf) g (hkept.mem hg) hlt)
  | takesBack c hc hfiles htime hopenings hlent huses => exact hu.touch ha hfiles htime huses

theorem timed_ofCapacity (capacity : Nat) (disk : Disk) : (ofCapacity capacity disk).Timed where
  lastUsed_le := by simp [ofCapacity, pool, FilePool.ofCapacity]
  nodup_lastUsed := List.nodup_nil
  handle_mem := by simp [ofCapacity, pool, FilePool.ofCapacity]
  idxOf_lt := by simp [ofCapacity, pool, FilePool.ofCapacity]

theorem Timed.run (hu : u.Timed) (ha : u.Accounted) (calls : List Call) : (u.run calls).Timed := by
  induction calls generalizing u with
  | nil => exact hu
  | cons c calls ih => exact ih (hu.moves ha (ha.moves_call c)) (ha.moves (ha.moves_call c))

/-! ## The order of files -/

/-- The same pool with its files in another order. -/
def reorder (u : PoolUse) (files : List PooledFile) : PoolUse :=
  { u with files := { u.files with pool := { u.pool with files } } }

theorem Accounted.find?_reorder (hu : u.Accounted) {files : List PooledFile}
    (h : files.Perm u.pool.files) (p : Path) : (u.reorder files).pool.find? p = u.pool.find? p := by
  cases hf : u.pool.find? p with
  | none =>
    rw [FilePool.find?_eq_none_iff] at hf ⊢
    exact fun f hf' => hf f (h.mem_iff.1 hf')
  | some f =>
    obtain ⟨hfm, hfp⟩ := FilePool.mem_and_isSame_of_find? hf
    cases hg : (u.reorder files).pool.find? p with
    | none =>
      rw [FilePool.find?_eq_none_iff.1 hg f (h.mem_iff.2 hfm)] at hfp
      cases hfp
    | some g =>
      obtain ⟨hgm, hgp⟩ := FilePool.mem_and_isSame_of_find? hg
      rw [hu.eq_of_isSame (h.mem_iff.1 hgm) hfm hgp hfp]

/-- What a call does does not depend on the order of the files. -/
theorem Timed.call_reorder (hu : u.Timed) (ha : u.Accounted) {files : List PooledFile}
    (h : files.Perm u.pool.files) (c : Call) : ∃ others, others.Perm (u.call c).pool.files ∧
      (u.reorder files).call c = (u.call c).reorder others := by
  cases c with
  | borrow p writing =>
    have hfind := ha.find?_reorder h p
    cases hf : u.pool.find? p with
    | some f =>
      rw [hf] at hfind
      rw [call, call, Files.borrow_of_find hf, Files.borrow_of_find hfind]
      exact ⟨_, h.map _, rfl⟩
    | none =>
      rw [hf] at hfind
      have hused := (h.map (·.lastUsed)).nodup_iff.2 hu.nodup_lastUsed
      have hkept : (FilePool.closeIdle u.pool.capacity files.length files).Perm
          (FilePool.closeIdle u.pool.capacity u.pool.files.length u.pool.files) :=
        h.length_eq ▸ FilePool.closeIdle_perm h hused
      rw [call, call, Files.borrow_of_none hf, Files.borrow_of_none hfind,
        show (u.reorder files).files.disk = u.files.disk from rfl]
      obtain ⟨result, disk⟩ := u.files.disk.openFile p writing
      cases result with
      | ok n => exact ⟨_, hkept.cons _, rfl⟩
      | error e =>
        dsimp only
        by_cases hmissing : !writing ∧ e = .notFound
        · rw [if_pos hmissing]
          exact ⟨_, h, rfl⟩
        · rw [if_neg hmissing]
          exact ⟨_, h, rfl⟩
  | giveBack c =>
    by_cases hc : c ∈ u.lent
    · rw [call, call, if_pos hc, if_pos (show c ∈ (u.reorder files).lent from hc)]
      exact ⟨_, h.map _, rfl⟩
    · rw [call, call, if_neg hc, if_neg (show c ∉ (u.reorder files).lent from hc)]
      exact ⟨_, h, rfl⟩
  | delete p => exact ⟨_, h.filter _, rfl⟩
  | closeAll => exact ⟨[], .refl _, rfl⟩
  | change disk => exact ⟨_, h, rfl⟩

/-! ## Making room -/

/-- The files that a call closes. -/
def closedBy (u : PoolUse) (c : Call) : List PooledFile :=
  u.pool.files.filter fun f => f.handle ∉ (u.call c).pool.files.map (·.handle)

/-- Indicates that the last use of a handle was before that of another one. -/
def UsedBefore (u : PoolUse) (h other : Handle) : Prop :=
  h ∈ u.uses ∧ u.uses.idxOf other < u.uses.idxOf h

theorem Accounted.capacity_call (hu : u.Accounted) (c : Call) :
    (u.call c).pool.capacity = u.pool.capacity := by
  cases c with
  | borrow p writing =>
    rcases hu.borrow_cases p writing with
      ⟨f, -, -, hborrow⟩ | ⟨-, ⟨n, disk, hborrow⟩ | ⟨result, disk, hresult, hborrow⟩⟩
    · rw [call, hborrow]
      rfl
    · rw [call, hborrow]
      rfl
    · rw [call_borrow_of_fails hresult hborrow]
      rfl
  | giveBack c =>
    rw [call]
    split <;> rfl
  | delete p => rfl
  | closeAll => rfl
  | change disk => rfl

theorem Accounted.capacity_run (hu : u.Accounted) (calls : List Call) :
    (u.run calls).pool.capacity = u.pool.capacity := by
  induction calls generalizing u with
  | nil => rfl
  | cons c calls ih =>
    rw [PoolUse.run, ih (hu.moves (hu.moves_call c)), hu.capacity_call]

/-- The files that are open are those that were not closed, if no file was opened. -/
theorem closedBy_eq_nil {c : Call}
    (h : (u.call c).pool.files.map (·.handle) = u.pool.files.map (·.handle)) :
    u.closedBy c = [] := by
  refine List.filter_eq_nil_iff.2 fun f hf => ?_
  rw [h]
  simpa using ⟨f, hf, rfl⟩

/-- Borrowing a file that is open closes none. -/
theorem Accounted.closedBy_of_isOpen (hu : u.Accounted) {p : Path} (writing : Bool)
    (hopen : u.pool.isOpen p = true) : u.closedBy (.borrow p writing) = [] := by
  obtain ⟨f, hf⟩ := Option.isSome_iff_exists.1 hopen
  rcases hu.borrow_cases p writing with ⟨k, -, -, hborrow⟩ | ⟨hnew, -⟩
  · refine closedBy_eq_nil ?_
    rw [call, hborrow]
    simp [pool, Function.comp_def]
  · obtain ⟨hmem, hsame⟩ := FilePool.mem_and_isSame_of_find? hf
    rw [hnew f hmem] at hsame
    cases hsame

/-- Opening a file closes those that `FilePool.closeIdle` does not keep. -/
theorem Accounted.opened_of_borrow (hu : u.Accounted) {p : Path} {writing : Bool} {c : Channel}
    (hopen : u.pool.isOpen p = false) (h : (u.files.borrow p writing).1 = .ok (some c)) :
    ∃ f kept, kept = FilePool.closeIdle u.pool.capacity u.pool.files.length u.pool.files ∧
      f.borrows = 1 ∧ (u.call (.borrow p writing)).pool.files = f :: kept ∧
      u.closedBy (.borrow p writing) = u.pool.files.filter (· ∉ kept) := by
  rcases hu.borrow_cases p writing with
    ⟨k, hk, hsame, hborrow⟩ | ⟨-, ⟨n, disk, hborrow⟩ | ⟨result, disk, hresult, hborrow⟩⟩
  · have hnone := Option.isNone_iff_eq_none.1 (Option.isSome_eq_false_iff.1 hopen)
    rw [FilePool.find?_eq_none_iff.1 hnone k hk] at hsame
    cases hsame
  · have hfiles : (u.call (.borrow p writing)).pool.files =
        { path := p, handle := { opening := u.pool.openings, file := n }, borrows := 1,
          lastUsed := u.pool.tick.tick.time } ::
          FilePool.closeIdle u.pool.capacity u.pool.files.length u.pool.files := by
      rw [call, hborrow]
      rfl
    refine ⟨_, _, rfl, rfl, hfiles, List.filter_congr fun f hf => ?_⟩
    rw [hfiles]
    have hsub := FilePool.closeIdle_sublist u.pool.capacity u.pool.files.length u.pool.files
    rw [decide_eq_decide, not_iff_not, List.map_cons, List.mem_cons]
    constructor
    · rintro (heq | hmem)
      · exact absurd heq (hu.handle_ne hf rfl)
      · obtain ⟨g, hg, heq⟩ := List.mem_map.1 hmem
        rwa [hu.eq_of_handle hf (hsub.mem hg) heq.symm]
    · exact fun hmem => .inr (List.mem_map_of_mem hmem)
  · rw [hborrow] at h
    exact absurd h (hresult c)

/-- The times of the files in a pool tell them apart, and what a call does does not depend on the order
in which they are listed. Borrowing a file that is open closes none. When another one is opened, idle files are
closed, and those of them whose last uses are the longest ago: as many as have to be for the number of
files to fall below the capacity, or all. Then the pool is within its capacity, or every file in it is
borrowed. -/
theorem run_closes_least_recent (capacity : Nat) (disk : Disk) (calls : List Call) :
    let u := (ofCapacity capacity disk).run calls
    (u.pool.files.map (·.lastUsed)).Nodup ∧
      (∀ files c, files.Perm u.pool.files → ∃ others, others.Perm (u.call c).pool.files ∧
        (u.reorder files).call c = (u.call c).reorder others) ∧
      ∀ p writing, (u.pool.isOpen p = true → u.closedBy (.borrow p writing) = []) ∧
        ∀ c, u.pool.isOpen p = false → (u.files.borrow p writing).1 = .ok (some c) →
          (∀ f ∈ u.closedBy (.borrow p writing), f.borrows = 0 ∧
            ∀ g ∈ u.pool.files, g.borrows = 0 → g ∉ u.closedBy (.borrow p writing) →
              u.UsedBefore f.handle g.handle) ∧
          (∃ k, IsLeast {k | u.pool.files.length - k < max capacity 1} k ∧
            (u.closedBy (.borrow p writing)).length = min k (FilePool.idleCount u.pool.files)) ∧
          ((u.call (.borrow p writing)).pool.files.length ≤ max capacity 1 ∨
            ∀ f ∈ (u.call (.borrow p writing)).pool.files, 0 < f.borrows) := by
  intro u
  have hstart := accounted_ofCapacity capacity disk
  have ha : u.Accounted := hstart.run calls
  have hu : u.Timed := (timed_ofCapacity capacity disk).run hstart calls
  have hcapacity : u.pool.capacity = max capacity 1 := hstart.capacity_run calls
  refine ⟨hu.nodup_lastUsed, fun files c h => hu.call_reorder ha h c, fun p writing =>
    ⟨ha.closedBy_of_isOpen writing, fun c hopen hborrow => ?_⟩⟩
  obtain ⟨new, kept, hkept, hnew, hfiles, hclosed⟩ := ha.opened_of_borrow hopen hborrow
  have hnodup := ha.nodup_handle.of_map
  have hsub : kept.Sublist u.pool.files := hkept ▸ FilePool.closeIdle_sublist ..
  obtain ⟨hidle, hsum, hends⟩ :=
    FilePool.closeIdle_spec u.pool.capacity (Nat.le_refl _) hu.nodup_lastUsed
  rw [← hkept] at hidle hsum hends
  have hlength := length_filter_notMem_of_sublist hsub hnodup
  rw [hclosed, hfiles]
  refine ⟨fun f hf => ?_, ⟨u.pool.files.length + 1 - u.pool.capacity, ⟨?_, fun k hk => ?_⟩, ?_⟩, ?_⟩
  · obtain ⟨hf, hnot⟩ := List.mem_filter.1 hf
    obtain ⟨hborrows, hbefore⟩ := hidle f hf (by simpa using hnot)
    refine ⟨hborrows, fun g hg hgidle hgnot => ?_⟩
    have hgkept : g ∈ kept := Decidable.byContradiction fun h =>
      hgnot (List.mem_filter.2 ⟨hg, by simpa using h⟩)
    exact ⟨hu.handle_mem f hf, hu.idxOf_lt f hf g hg (hbefore g hgkept hgidle)⟩
  · show u.pool.files.length - _ < max capacity 1
    omega
  · have hroom : u.pool.files.length - k < max capacity 1 := hk
    omega
  · omega
  · refine hends.imp (fun hroom => ?_) fun hlent => ?_
    · rw [List.length_cons, ← hcapacity]
      exact hroom
    · exact List.forall_mem_cons.2 ⟨hnew ▸ Nat.one_pos, hlent⟩

/-- A pool that has grown beyond its capacity closes two of three idle files for a fourth one: the file
that was opened first was given back last, and stays. -/
theorem run_closes_least_recent_of_full :
    let u := (ofCapacity 2 (Disk.ofHome ["home"])).run
      [.borrow ⟨"a"⟩ true, .borrow ⟨"b"⟩ true, .borrow ⟨"c"⟩ true,
        .giveBack { path := ⟨"b"⟩, handle := { opening := 1, file := 1 } },
        .giveBack { path := ⟨"c"⟩, handle := { opening := 2, file := 2 } },
        .giveBack { path := ⟨"a"⟩, handle := { opening := 0, file := 0 } }]
    (u.closedBy (.borrow ⟨"d"⟩ true)).map (·.path) = [⟨"c"⟩, ⟨"b"⟩] ∧
      (∀ f ∈ u.closedBy (.borrow ⟨"d"⟩ true),
        u.UsedBefore f.handle { opening := 0, file := 0 }) ∧
      (u.call (.borrow ⟨"d"⟩ true)).pool.files.map (·.path) = [⟨"d"⟩, ⟨"a"⟩] ∧
      u.closedBy (.borrow ⟨"a"⟩ true) = [] ∧
      ∃ others, others.Perm (u.call (.borrow ⟨"d"⟩ true)).pool.files ∧
        (u.reorder u.pool.files.reverse).call (.borrow ⟨"d"⟩ true) =
          (u.call (.borrow ⟨"d"⟩ true)).reorder others := by
  intro u
  obtain ⟨-, horder, hopens⟩ := run_closes_least_recent 2 (Disk.ofHome ["home"])
    [.borrow ⟨"a"⟩ true, .borrow ⟨"b"⟩ true, .borrow ⟨"c"⟩ true,
      .giveBack { path := ⟨"b"⟩, handle := { opening := 1, file := 1 } },
      .giveBack { path := ⟨"c"⟩, handle := { opening := 2, file := 2 } },
      .giveBack { path := ⟨"a"⟩, handle := { opening := 0, file := 0 } }]
  obtain ⟨hbefore, -, -⟩ := (hopens ⟨"d"⟩ true).2
    { path := ⟨"d"⟩, handle := { opening := 3, file := 3 } } (by decide) (by decide)
  have ha : { path := ⟨"a"⟩, handle := { opening := 0, file := 0 }, borrows := 0, lastUsed := 9 } ∈
      u.pool.files := by decide
  exact ⟨by decide, fun f hf => (hbefore f hf).2 _ ha rfl (by decide), by decide,
    (hopens ⟨"a"⟩ true).1 (by decide), horder _ _ (List.reverse_perm _)⟩

end PoolUse

end StatefulPages
