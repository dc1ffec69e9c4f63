import Mathlib.Data.List.Nodup
import StatefulPages.Proofs.Storage.PoolFiles

/-!
# A pool of files in use

A `PoolUse` is a pool with the channels that were borrowed from it and not given back, and with the
handles in the order in which they were used. What a call does to a pool is one of four things
(`PoolUse.Moves`), and from that alone:

* `PoolUse.Accounted`: at every time a pool holds one file for each path, and counts for it the
  channels of its very handle;
* `PoolUse.run_accounted`: so each channel that is given back is one that was counted, and a file that
  somebody has borrowed is not closed for another one.
-/

namespace StatefulPages

/-- What tells paths apart for a pool. -/
def Path.key (p : Path) : Bool × Bool × List String :=
  (p.isAbsolute, p.beginsAtDot, p.names)

theorem Path.isSame_iff_key {p q : Path} : p.isSame q = true ↔ p.key = q.key := by
  rw [isSame_iff, key, key, Prod.mk.injEq, Prod.mk.injEq]

/-- A pool of files that is in use. -/
structure PoolUse where
  files : Files
  /-- The channels that have not been given back. -/
  lent : List Channel := []
  /-- The handles that were borrowed or given back, the last one first. -/
  uses : List Handle := []

namespace PoolUse

/-- What can be done with a pool. -/
inductive Call where
  | borrow (path : Path) (writing : Bool)
  /-- Gives back a channel, if it is lent. -/
  | giveBack (channel : Channel)
  | delete (path : Path)
  | closeAll
  /-- The disk becomes another one, as channels write to it and others use it, too. -/
  | change (disk : Disk)

/-- A pool that has not been used. -/
def ofCapacity (capacity : Nat) (disk : Disk) : PoolUse :=
  { files := { pool := .ofCapacity capacity, disk } }

/-- The pool itself. -/
def pool (u : PoolUse) : FilePool := u.files.pool

/-- Makes a call. -/
def call (u : PoolUse) : Call → PoolUse
  | .borrow p writing =>
    match u.files.borrow p writing with
    | (.ok (some c), files) => { files, lent := c :: u.lent, uses := c.handle :: u.uses }
    | (_, files) => { u with files }
  | .giveBack c =>
    if c ∈ u.lent then
      { files := u.files.giveBack c, lent := u.lent.erase c, uses := c.handle :: u.uses }
    else u
  | .delete p => { u with files := u.files.delete p }
  | .closeAll => { u with files := u.files.closeAll }
  | .change disk => { u with files := { u.files with disk } }

/-- Makes several calls. -/
def run (u : PoolUse) : List Call → PoolUse
  | [] => u
  | c :: calls => run (u.call c) calls

/-- How many channels of a handle are lent. -/
def lentOf (u : PoolUse) (h : Handle) : Nat :=
  u.lent.countP (·.handle = h)

/-! ## What calls do -/

/-- A file after a use of the handle `h`. -/
def touch (h : Handle) (count : Nat → Nat) (time : Nat) (f : PooledFile) : PooledFile :=
  if f.handle = h then { f with borrows := count f.borrows, lastUsed := time } else f

@[simp] theorem path_touch (h : Handle) (count : Nat → Nat) (time : Nat) (f : PooledFile) :
    (touch h count time f).path = f.path := by
  rw [touch]
  split <;> rfl

@[simp] theorem handle_touch (h : Handle) (count : Nat → Nat) (time : Nat) (f : PooledFile) :
    (touch h count time f).handle = f.handle := by
  rw [touch]
  split <;> rfl

/-- What a call can do to a pool: it leaves alone the files that it does not close, lends or takes
back a channel of a file that is open, or lends one of a file that it opens. -/
inductive Moves (u u' : PoolUse) : Prop where
  | keeps (hfiles : u'.pool.files.Sublist u.pool.files) (htime : u.pool.time ≤ u'.pool.time)
      (hopenings : u'.pool.openings = u.pool.openings) (hlent : u'.lent = u.lent)
      (huses : u'.uses = u.uses)
  | lends (p : Path) (f : PooledFile) (hf : f ∈ u.pool.files) (hsame : f.path.isSame p = true)
      (hfiles : u'.pool.files = u.pool.files.map (touch f.handle (· + 1) u'.pool.time))
      (htime : u.pool.time < u'.pool.time) (hopenings : u'.pool.openings = u.pool.openings)
      (hlent : u'.lent = { path := p, handle := f.handle } :: u.lent)
      (huses : u'.uses = f.handle :: u.uses)
  | opens (p : Path) (h : Handle) (kept : List PooledFile) (hkept : kept.Sublist u.pool.files)
      (hnew : ∀ f ∈ u.pool.files, f.path.isSame p = false) (hopening : h.opening = u.pool.openings)
      (hfiles : u'.pool.files =
        { path := p, handle := h, borrows := 1, lastUsed := u'.pool.time } :: kept)
      (htime : u.pool.time < u'.pool.time) (hopenings : u'.pool.openings = u.pool.openings + 1)
      (hlent : u'.lent = { path := p, handle := h } :: u.lent) (huses : u'.uses = h :: u.uses)
  | takesBack (c : Channel) (hc : c ∈ u.lent)
      (hfiles : u'.pool.files = u.pool.files.map (touch c.handle (· - 1) u'.pool.time))
      (htime : u.pool.time < u'.pool.time) (hopenings : u'.pool.openings = u.pool.openings)
      (hlent : u'.lent = u.lent.erase c) (huses : u'.uses = c.handle :: u.uses)

/-- Indicates that the borrows of files are the channels that are lent. -/
structure Accounted (u : PoolUse) : Prop where
  /-- There is one file at most for each path, -/
  nodup_path : (u.pool.files.map (·.path.key)).Nodup
  /-- and for each handle. -/
  nodup_handle : (u.pool.files.map (·.handle)).Nodup
  /-- Handles are counted as files are opened. -/
  opening_lt : ∀ f ∈ u.pool.files, f.handle.opening < u.pool.openings
  opening_lt_of_lent : ∀ c ∈ u.lent, c.handle.opening < u.pool.openings
  isSame_path : ∀ c ∈ u.lent, ∀ f ∈ u.pool.files, f.handle = c.handle → f.path.isSame c.path = true
  borrows_eq : ∀ f ∈ u.pool.files, f.borrows = u.lentOf f.handle

variable {u u' : PoolUse} {f g : PooledFile} {p : Path}

/-- Files of one path are one. -/
theorem Accounted.eq_of_isSame (hu : u.Accounted) (hf : f ∈ u.pool.files) (hg : g ∈ u.pool.files)
    (hfp : f.path.isSame p = true) (hgp : g.path.isSame p = true) : f = g :=
  List.inj_on_of_nodup_map hu.nodup_path hf hg
    ((Path.isSame_iff_key.1 hfp).trans (Path.isSame_iff_key.1 hgp).symm)

/-- Files of one handle are one. -/
theorem Accounted.eq_of_handle (hu : u.Accounted) (hf : f ∈ u.pool.files) (hg : g ∈ u.pool.files)
    (h : f.handle = g.handle) : f = g :=
  List.inj_on_of_nodup_map hu.nodup_handle hf hg h

/-- No file has the handle of the next opening. -/
theorem Accounted.handle_ne (hu : u.Accounted) (hf : f ∈ u.pool.files) {h : Handle}
    (hopening : h.opening = u.pool.openings) : f.handle ≠ h := by
  rintro rfl
  exact Nat.lt_irrefl _ (hopening ▸ hu.opening_lt f hf)

/-- What is done to a file that is open at a path is done to the file of its handle. -/
theorem Accounted.map_modify (hu : u.Accounted) (hf : f ∈ u.pool.files)
    (hsame : f.path.isSame p = true) (time : Nat) :
    (u.pool.files.map fun g => if g.path.isSame p then
      { g with borrows := g.borrows + 1, lastUsed := time } else g) =
      u.pool.files.map (touch f.handle (· + 1) time) := by
  refine List.map_congr_left fun g hg => ?_
  rw [touch]
  by_cases h : g.path.isSame p = true
  · rw [if_pos h, if_pos (hu.eq_of_isSame hg hf h hsame ▸ rfl)]
  · rw [if_neg h, if_neg fun heq => h (hu.eq_of_handle hg hf heq ▸ hsame)]

/-- What is given back is given back to the file of its handle. -/
theorem Accounted.files_giveBack (hu : u.Accounted) {c : Channel} (hc : c ∈ u.lent) :
    (u.pool.giveBack c).files = u.pool.files.map (touch c.handle (· - 1) (u.pool.time + 1)) := by
  rw [FilePool.giveBack]
  refine List.map_congr_left fun g hg => ?_
  rw [touch]
  dsimp only
  by_cases h : g.handle = c.handle
  · rw [if_pos (hu.isSame_path c hc g hg h), if_pos h, if_pos h]
    rfl
  · rw [if_neg h, if_neg h, ite_self]

/-- A borrowing lends a channel of the file that is open at the path or that it opens, or fails. -/
theorem Accounted.borrow_cases (hu : u.Accounted) (p : Path) (writing : Bool) :
    (∃ f ∈ u.pool.files, f.path.isSame p = true ∧
      u.files.borrow p writing = (.ok (some { path := p, handle := f.handle }), { u.files with
        pool := { u.pool.tick with
          files := u.pool.files.map (touch f.handle (· + 1) u.pool.tick.time) } })) ∨
    ((∀ f ∈ u.pool.files, f.path.isSame p = false) ∧ ((∃ n disk,
        u.files.borrow p writing = (.ok (some (u.pool.tick.tick.lend p n).1),
          { pool := (u.pool.tick.tick.lend p n).2, disk })) ∨
      ∃ result disk, (∀ c, result ≠ .ok (some c)) ∧
        u.files.borrow p writing = (result, { pool := u.pool.tick, disk }))) := by
  cases hfind : u.files.pool.find? p with
  | some f =>
    obtain ⟨hf, hsame⟩ := FilePool.mem_and_isSame_of_find? hfind
    refine .inl ⟨f, hf, hsame, ?_⟩
    rw [Files.borrow_of_find hfind, ← hu.map_modify hf hsame]
    rfl
  | none =>
    exact .inr ⟨FilePool.find?_eq_none_iff.1 hfind, Files.borrow_cases_of_none hfind writing⟩

/-- A borrowing that fails changes no file. -/
theorem call_borrow_of_fails {result : Except IoError (Option Channel)} {disk : Disk}
    {writing : Bool} (hresult : ∀ c, result ≠ .ok (some c))
    (hborrow : u.files.borrow p writing = (result, { pool := u.pool.tick, disk })) :
    u.call (.borrow p writing) = { u with files := { pool := u.pool.tick, disk } } := by
  rw [call, hborrow]
  split
  · rename_i c files heq
    exact absurd (congrArg Prod.fst heq) (hresult c)
  · rename_i heq
    cases heq
    rfl

theorem Accounted.moves_borrow (hu : u.Accounted) (p : Path) (writing : Bool) :
    Moves u (u.call (.borrow p writing)) := by
  rcases hu.borrow_cases p writing with
    ⟨f, hf, hsame, hborrow⟩ | ⟨hnew, ⟨n, disk, hborrow⟩ | ⟨result, disk, hresult, hborrow⟩⟩
  · rw [call, hborrow]
    exact .lends p f hf hsame rfl (Nat.lt_succ_self _) rfl rfl rfl
  · rw [call, hborrow]
    exact .opens p _ _ (FilePool.closeIdle_sublist ..) hnew rfl rfl
      (Nat.lt_add_of_pos_right Nat.two_pos) rfl rfl rfl
  · rw [call_borrow_of_fails hresult hborrow]
    exact .keeps (List.Sublist.refl _) (Nat.le_succ _) rfl rfl rfl

/-- A call makes one of the moves. -/
theorem Accounted.moves_call (hu : u.Accounted) (c : Call) : Moves u (u.call c) := by
  cases c with
  | borrow p writing => exact hu.moves_borrow p writing
  | giveBack c =>
    rw [call]
    split
    · rename_i hc
      exact .takesBack c hc (hu.files_giveBack hc) (Nat.lt_succ_self _) rfl rfl rfl
    · exact .keeps (List.Sublist.refl _) (Nat.le_refl _) rfl rfl rfl
  | delete p => exact .keeps List.filter_sublist (Nat.le_refl _) rfl rfl rfl
  | closeAll => exact .keeps (List.nil_sublist _) (Nat.le_refl _) rfl rfl rfl
  | change disk => exact .keeps (List.Sublist.refl _) (Nat.le_refl _) rfl rfl rfl

/-! ## What is counted -/

theorem lentOf_of_cons {c : Channel} (hlent : u'.lent = c :: u.lent) (h : Handle) :
    u'.lentOf h = u.lentOf h + if c.handle = h then 1 else 0 := by
  simp [lentOf, hlent, List.countP_cons]

theorem lentOf_of_erase {c : Channel} (hc : c ∈ u.lent) (hlent : u'.lent = u.lent.erase c)
    (h : Handle) : u.lentOf h = u'.lentOf h + if c.handle = h then 1 else 0 := by
  rw [lentOf, lentOf, hlent, (List.perm_cons_erase hc).countP_eq, List.countP_cons]
  simp

theorem lentOf_pos_iff {h : Handle} : 0 < u.lentOf h ↔ ∃ c ∈ u.lent, c.handle = h := by
  simp [lentOf]

/-- No channel is lent of a handle that is still to come. -/
theorem Accounted.lentOf_eq_zero (hu : u.Accounted) {h : Handle}
    (hopening : u.pool.openings ≤ h.opening) : u.lentOf h = 0 := by
  refine Nat.eq_zero_of_not_pos fun hpos => ?_
  obtain ⟨c, hc, heq⟩ := lentOf_pos_iff.1 hpos
  have hlt := hu.opening_lt_of_lent c hc
  rw [heq] at hlt
  omega

/-- A use of a handle leaves a pool accounted, if the channels that are lent are those it counts. -/
theorem Accounted.touch (hu : u.Accounted) {h : Handle} {count : Nat → Nat} {time : Nat}
    (hfiles : u'.pool.files = u.pool.files.map (PoolUse.touch h count time))
    (hopenings : u'.pool.openings = u.pool.openings)
    (hlent : ∀ c ∈ u'.lent, c ∈ u.lent ∨
      ∃ f ∈ u.pool.files, c.handle = f.handle ∧ f.path.isSame c.path = true)
    (hcount : count (u.lentOf h) = u'.lentOf h)
    (hother : ∀ k, k ≠ h → u.lentOf k = u'.lentOf k) : u'.Accounted := by
  have hmem : ∀ g ∈ u'.pool.files, ∃ f ∈ u.pool.files, PoolUse.touch h count time f = g := by
    rw [hfiles]
    exact fun g hg => List.mem_map.1 hg
  refine {
    nodup_path := ?_
    nodup_handle := ?_
    opening_lt := fun g hg => ?_
    opening_lt_of_lent := fun c hc => ?_
    isSame_path := fun c hc g hg heq => ?_
    borrows_eq := fun g hg => ?_ }
  · simpa [hfiles, Function.comp_def] using hu.nodup_path
  · simpa [hfiles, Function.comp_def] using hu.nodup_handle
  · obtain ⟨f, hf, rfl⟩ := hmem g hg
    rw [handle_touch, hopenings]
    exact hu.opening_lt f hf
  · rw [hopenings]
    rcases hlent c hc with hc | ⟨f, hf, heq, -⟩
    · exact hu.opening_lt_of_lent c hc
    · exact heq ▸ hu.opening_lt f hf
  · obtain ⟨f, hf, rfl⟩ := hmem g hg
    rw [handle_touch] at heq
    rw [path_touch]
    rcases hlent c hc with hc | ⟨k, hk, hkc, hsame⟩
    · exact hu.isSame_path c hc f hf heq
    · rwa [hu.eq_of_handle hf hk (heq.trans hkc)]
  · obtain ⟨f, hf, rfl⟩ := hmem g hg
    rw [handle_touch, PoolUse.touch]
    split
    · rename_i heq
      rw [heq, ← hcount, ← heq]
      exact congrArg count (hu.borrows_eq f hf)
    · rename_i hne
      rw [← hother _ hne]
      exact hu.borrows_eq f hf

/-- A move leaves a pool accounted. -/
theorem Accounted.moves (hu : u.Accounted) (h : Moves u u') : u'.Accounted := by
  cases h with
  | keeps hfiles htime hopenings hlent huses =>
    have hmem : ∀ {f}, f ∈ u'.pool.files → f ∈ u.pool.files := fun hf => hfiles.mem hf
    exact {
      nodup_path := hu.nodup_path.sublist (hfiles.map _)
      nodup_handle := hu.nodup_handle.sublist (hfiles.map _)
      opening_lt := fun f hf => hopenings ▸ hu.opening_lt f (hmem hf)
      opening_lt_of_lent := hopenings ▸ hlent ▸ hu.opening_lt_of_lent
      isSame_path := fun c hc f hf => hu.isSame_path c (hlent ▸ hc) f (hmem hf)
      borrows_eq := fun f hf => by
        rw [lentOf, hlent]
        exact hu.borrows_eq f (hmem hf) }
  | lends p f hf hsame hfiles htime hopenings hlent huses =>
    refine hu.touch hfiles hopenings (fun c hc => ?_) ?_ fun k hk => ?_
    · rcases List.mem_cons.1 (hlent ▸ hc) with rfl | hc
      · exact .inr ⟨f, hf, rfl, hsame⟩
      · exact .inl hc
    · rw [lentOf_of_cons hlent, if_pos rfl]
    · rw [lentOf_of_cons hlent, if_neg hk.symm, Nat.add_zero]
  | opens p h kept hkept hnew hopening hfiles htime hopenings hlent huses =>
    have hmem : ∀ {f}, f ∈ kept → f ∈ u.pool.files := fun hf => hkept.mem hf
    have hfresh : ∀ {f}, f ∈ kept → f.handle ≠ h := fun hf => hu.handle_ne (hmem hf) hopening
    refine {
      nodup_path := ?_
      nodup_handle := ?_
      opening_lt := fun f hf => ?_
      opening_lt_of_lent := fun c hc => ?_
      isSame_path := fun c hc f hf heq => ?_
      borrows_eq := fun f hf => ?_ }
    · rw [hfiles, List.map_cons, List.nodup_cons]
      refine ⟨fun hp => ?_, hu.nodup_path.sublist (hkept.map _)⟩
      obtain ⟨f, hf, heq⟩ := List.mem_map.1 hp
      have hsame := hnew f (hmem hf)
      rw [Path.isSame_iff_key.2 heq] at hsame
      cases hsame
    · rw [hfiles, List.map_cons, List.nodup_cons]
      refine ⟨fun hp => ?_, hu.nodup_handle.sublist (hkept.map _)⟩
      obtain ⟨f, hf, heq⟩ := List.mem_map.1 hp
      exact hfresh hf heq
    · rw [hopenings]
      rcases List.mem_cons.1 (hfiles ▸ hf) with rfl | hf
      · exact Nat.lt_succ_of_le (Nat.le_of_eq hopening)
      · exact Nat.lt_succ_of_lt (hu.opening_lt f (hmem hf))
    · rw [hopenings]
      rcases List.mem_cons.1 (hlent ▸ hc) with rfl | hc
      · exact Nat.lt_succ_of_le (Nat.le_of_eq hopening)
      · exact Nat.lt_succ_of_lt (hu.opening_lt_of_lent c hc)
    · rcases List.mem_cons.1 (hlent ▸ hc) with rfl | hc
      · rcases List.mem_cons.1 (hfiles ▸ hf) with rfl | hf
        · exact Path.isSame_self p
        · exact absurd heq (hfresh hf)
      · rcases List.mem_cons.1 (hfiles ▸ hf) with rfl | hf
        · have hlt := hu.opening_lt_of_lent c hc
          rw [← show h = c.handle from heq] at hlt
          omega
        · exact hu.isSame_path c hc f (hmem hf) heq
    · rw [lentOf_of_cons hlent]
      rcases List.mem_cons.1 (hfiles ▸ hf) with rfl | hf
      · rw [if_pos rfl, hu.lentOf_eq_zero (Nat.le_of_eq hopening.symm)]
      · rw [if_neg (hfresh hf).symm, hu.borrows_eq f (hmem hf), Nat.add_zero]
  | takesBack c hc hfiles htime hopenings hlent huses =>
    refine hu.touch hfiles hopenings (fun d hd => .inl ?_) ?_ fun k hk => ?_
    · exact List.mem_of_mem_erase (hlent ▸ hd)
    · rw [lentOf_of_erase hc hlent, if_pos rfl, Nat.add_sub_cancel]
    · rw [lentOf_of_erase hc hlent, if_neg hk.symm, Nat.add_zero]

theorem accounted_ofCapacity (capacity : Nat) (disk : Disk) : (ofCapacity capacity disk).Accounted where
  nodup_path := List.nodup_nil
  nodup_handle := List.nodup_nil
  opening_lt := by simp [ofCapacity, pool, FilePool.ofCapacity]
  opening_lt_of_lent := by simp [ofCapacity]
  isSame_path := by simp [ofCapacity]
  borrows_eq := by simp [ofCapacity, pool, FilePool.ofCapacity]

theorem Accounted.run (hu : u.Accounted) (calls : List Call) : (u.run calls).Accounted := by
  induction calls generalizing u with
  | nil => exact hu
  | cons c calls ih => exact ih (hu.moves (hu.moves_call c))

/-- A file that somebody has borrowed stays open when another one is borrowed. -/
theorem Accounted.borrow_keeps (hu : u.Accounted) (p : Path) (writing : Bool)
    (hf : f ∈ u.pool.files) (hlent : 0 < u.lentOf f.handle) :
    ∃ g ∈ (u.call (.borrow p writing)).pool.files, g.path = f.path ∧ g.handle = f.handle := by
  have hborrowed : f.borrows ≠ 0 := by
    rw [hu.borrows_eq f hf]
    omega
  rcases hu.borrow_cases p writing with
    ⟨k, -, -, hborrow⟩ | ⟨-, ⟨n, disk, hborrow⟩ | ⟨result, disk, hresult, hborrow⟩⟩
  · rw [call, hborrow]
    exact ⟨_, List.mem_map_of_mem hf, path_touch .., handle_touch ..⟩
  · rw [call, hborrow]
    exact ⟨f, List.mem_cons_of_mem _ (FilePool.mem_closeIdle_of_borrowed hf hborrowed), rfl, rfl⟩
  · rw [call_borrow_of_fails hresult hborrow]
    exact ⟨f, hf, rfl, rfl⟩

/-- A channel that is lent has the handle of the file that is open at its path, or one that is new. -/
theorem Accounted.handle_of_borrow (hu : u.Accounted) {writing : Bool} {c : Channel}
    (h : (u.files.borrow p writing).1 = .ok (some c)) :
    (∃ f ∈ u.pool.files, f.path.isSame p = true ∧ f.handle = c.handle) ∨
      ((∀ f ∈ u.pool.files, f.path.isSame p = false ∧ f.handle ≠ c.handle) ∧
        u.lentOf c.handle = 0) := by
  rcases hu.borrow_cases p writing with
    ⟨k, hk, hsame, hborrow⟩ | ⟨hnew, ⟨n, disk, hborrow⟩ | ⟨result, disk, hresult, hborrow⟩⟩
  · rw [hborrow] at h
    cases h
    exact .inl ⟨k, hk, hsame, rfl⟩
  · rw [hborrow] at h
    cases h
    exact .inr ⟨fun f hf => ⟨hnew f hf, hu.handle_ne hf rfl⟩, hu.lentOf_eq_zero (Nat.le_refl _)⟩
  · rw [hborrow] at h
    exact absurd h (hresult c)

/-- At every time a pool counts for a file the channels of its handle that are lent. So the count is
not zero when one of them is given back, and a file of which one is lent stays open when others are
borrowed. A handle stands for one opening of a file: what is lent is the handle of the file that is
open at the path, or one that nobody has. -/
theorem run_accounted (capacity : Nat) (disk : Disk) (calls : List Call) :
    let u := (ofCapacity capacity disk).run calls
    (∀ f ∈ u.pool.files, f.borrows = u.lentOf f.handle) ∧
      (∀ c ∈ u.lent, ∀ f ∈ u.pool.files, f.handle = c.handle → 0 < f.borrows) ∧
      (∀ p writing, ∀ f ∈ u.pool.files, 0 < u.lentOf f.handle →
        ∃ g ∈ (u.call (.borrow p writing)).pool.files, g.path = f.path ∧ g.handle = f.handle) ∧
      ∀ p writing c, (u.files.borrow p writing).1 = .ok (some c) →
        (∃ f ∈ u.pool.files, f.path.isSame p = true ∧ f.handle = c.handle) ∨
        ((∀ f ∈ u.pool.files, f.path.isSame p = false ∧ f.handle ≠ c.handle) ∧
          u.lentOf c.handle = 0) := by
  intro u
  have hu : u.Accounted := (accounted_ofCapacity capacity disk).run calls
  refine ⟨hu.borrows_eq, fun c hc f hf heq => ?_, fun p writing f hf => hu.borrow_keeps p writing hf,
    fun p writing c => hu.handle_of_borrow⟩
  rw [hu.borrows_eq f hf]
  exact lentOf_pos_iff.2 ⟨c, hc, heq.symm⟩

/-- A file is deleted and opened anew while its first channel is lent; that channel does not count. -/
theorem run_accounted_of_reopened :
    let u := (ofCapacity 1 (Disk.ofHome ["home"])).run
      [.borrow ⟨"a"⟩ true, .delete ⟨"a"⟩, .borrow ⟨"a"⟩ true, .borrow ⟨"b"⟩ true]
    u.lent.map (·.handle.opening) = [2, 1, 0] ∧ u.pool.files.map (·.borrows) = [1, 1] ∧
      (∀ f ∈ u.pool.files, f.borrows = u.lentOf f.handle) ∧
      ∃ g ∈ (u.call (.borrow ⟨"c"⟩ true)).pool.files,
        g.path = ⟨"a"⟩ ∧ g.handle = { opening := 1, file := 1 } := by
  intro u
  obtain ⟨hcount, -, hkeeps, -⟩ := run_accounted 1 (Disk.ofHome ["home"])
    [.borrow ⟨"a"⟩ true, .delete ⟨"a"⟩, .borrow ⟨"a"⟩ true, .borrow ⟨"b"⟩ true]
  have ha : { path := ⟨"a"⟩, handle := { opening := 1, file := 1 }, borrows := 1, lastUsed := 4 } ∈
      u.pool.files := by decide
  exact ⟨by decide, by decide, hcount, hkeeps ⟨"c"⟩ true _ ha (by decide)⟩

end PoolUse

end StatefulPages
