import StatefulPages.Proofs.Storage.FreeRanges

/-!
# Consistent layouts

A layout is `Consistent` if no page has two windows, no byte of the file is held twice, and all that
is held lies before the end of the file. A byte before the end that nothing holds is `Leaked`.

* `Consistent.without`, `leaked_without`: giving up a window keeps a layout consistent and leaks
  nothing;
* `Consistent.withNew`, `leaked_withNew`: neither does a new window.
-/

namespace StatefulPages

namespace Window

/-- Indicates that a byte of the file lies in a window. -/
def Holds (w : Window) (b : Nat) : Prop :=
  w.offset ≤ b ∧ b < w.stop

/-- Indicates that a byte of the file lies in one of the windows. -/
def Covers (ws : List Window) (b : Nat) : Prop :=
  ∃ w ∈ ws, w.Holds b

/-- Indicates that no byte lies in both windows. -/
def Apart (w v : Window) : Prop :=
  ∀ b, w.Holds b → ¬ v.Holds b

variable {w v : Window} {ws vs : List Window} {b : Nat}

theorem Apart.symm (h : Apart w v) : Apart v w :=
  fun b hv hw => h b hw hv

theorem covers_cons : Covers (w :: ws) b ↔ w.Holds b ∨ Covers ws b := by
  simp [Covers]

theorem covers_append : Covers (ws ++ vs) b ↔ Covers ws b ∨ Covers vs b := by
  simp [Covers, or_and_right, exists_or]

theorem covers_of_perm (h : ws.Perm vs) : Covers ws b ↔ Covers vs b := by
  simp [Covers, h.mem_iff]

theorem size_pos_of_holds (h : w.Holds b) : 0 < w.size := by
  simp only [Holds, stop] at h
  omega

end Window

namespace Layout

theorem sizeSum_append (ws vs : List Window) : sizeSum (ws ++ vs) = sizeSum ws + sizeSum vs := by
  induction ws with
  | nil => simp [sizeSum]
  | cons w ws ih =>
    simp only [List.cons_append, sizeSum, ih]
    omega

theorem sizeSum_of_perm {ws vs : List Window} (h : ws.Perm vs) : sizeSum ws = sizeSum vs := by
  induction h with
  | nil => rfl
  | cons w _ ih => simp only [sizeSum, ih]
  | swap w v ws =>
    simp only [sizeSum]
    omega
  | trans _ _ ih₁ ih₂ => exact ih₁.trans ih₂

/-- Indicates that no page has two windows, that no byte is held twice, and that all that is held
lies before the end of the file. -/
structure Consistent (l : Layout) : Prop where
  pages_nodup : (l.windows.map (·.page)).Nodup
  windows_apart : l.windows.Pairwise Window.Apart
  spaced : FreeRange.Spaced l.free
  not_free : ∀ b, Window.Covers l.windows b → ¬ FreeRange.Covers l.free b
  window_lt : ∀ b, Window.Covers l.windows b → b < l.fileEnd
  free_lt : ∀ b, FreeRange.Covers l.free b → b < l.fileEnd

/-- Indicates a byte before the end of the file that neither a window nor a free range holds. -/
def Leaked (l : Layout) (b : Nat) : Prop :=
  b < l.fileEnd ∧ ¬ Window.Covers l.windows b ∧ ¬ FreeRange.Covers l.free b

/-! ## Giving up a window -/

/-- Trimming takes the last free range off the file if it lies at its end, and else does nothing. -/
theorem trim_cases (l : Layout) :
    (∃ before r, l.free = before ++ [r] ∧ r.stop = l.fileEnd ∧
      l.trim = { l with free := before, fileEnd := r.offset }) ∨
    ((∀ r, l.free.getLast? = some r → r.stop ≠ l.fileEnd) ∧ l.trim = l) := by
  rw [trim]
  split
  · rename_i r hr
    split
    · rename_i hstop
      obtain ⟨before, hbefore⟩ := List.getLast?_eq_some_iff.1 hr
      exact .inl ⟨before, r, hbefore, hstop, by simp [hbefore]⟩
    · rename_i hstop
      refine .inr ⟨fun s hs => ?_, rfl⟩
      rw [hr, Option.some.injEq] at hs
      exact hs ▸ hstop
  · rename_i hnone
    exact .inr ⟨fun s hs => (by rw [hnone] at hs; cases hs), rfl⟩

/-- What trimming does to the bytes of a file whose free ranges are spaced and lie within it. -/
structure Trimmed (l l' : Layout) : Prop where
  spaced : FreeRange.Spaced l'.free
  fileEnd_le : l'.fileEnd ≤ l.fileEnd
  covers_iff : ∀ b, FreeRange.Covers l'.free b ↔ FreeRange.Covers l.free b ∧ b < l'.fileEnd
  covers_cut : ∀ b, l'.fileEnd ≤ b → b < l.fileEnd → FreeRange.Covers l.free b
  last_not_free : l'.fileEnd ≠ 0 → ¬ FreeRange.Covers l.free (l'.fileEnd - 1)
  sizeSum_eq : FreeRange.sizeSum l'.free + l.fileEnd = FreeRange.sizeSum l.free + l'.fileEnd

theorem trimmed_trim {l : Layout} (hs : FreeRange.Spaced l.free)
    (hlt : ∀ b, FreeRange.Covers l.free b → b < l.fileEnd) : Trimmed l l.trim := by
  rcases trim_cases l with ⟨before, r, hfree, hstop, htrim⟩ | ⟨hlast, htrim⟩
  · have hr : r ∈ l.free := by simp [hfree]
    obtain ⟨-, hstart⟩ := FreeRange.not_covers_around hs hr
    rw [hfree, FreeRange.spaced_append] at hs
    obtain ⟨hbefore, -, hbelow⟩ := hs
    have hcovers : ∀ b, FreeRange.Covers l.free b ↔ FreeRange.Covers before b ∨ r.Holds b := by
      intro b
      rw [hfree, FreeRange.covers_append, FreeRange.covers_cons]
      simp
    have hbefore_lt : ∀ b, FreeRange.Covers before b → b < r.offset := by
      rintro b ⟨x, hx, hxb⟩
      exact Nat.lt_trans hxb.2 (hbelow x hx r (by simp))
    rw [htrim]
    refine ⟨hbefore, ?_, fun b => ?_, fun b hlo hhi => ?_, fun hne => hstart hne, ?_⟩
    · exact hstop ▸ Nat.le_add_right ..
    · rw [hcovers]
      constructor
      · exact fun h => ⟨.inl h, hbefore_lt b h⟩
      · rintro ⟨h | h, hb⟩
        · exact h
        · exact absurd hb (Nat.not_lt.2 h.1)
    · exact (hcovers b).2 (.inr ⟨hlo, hstop.symm ▸ hhi⟩)
    · rw [hfree, FreeRange.sizeSum_append, ← hstop]
      simp only [FreeRange.sizeSum, FreeRange.stop]
      omega
  · rw [htrim]
    refine ⟨hs, Nat.le_refl _, fun b => ⟨fun h => ⟨h, hlt b h⟩, And.left⟩,
      fun b hlo hhi => absurd hhi (Nat.not_lt.2 hlo), fun hne => ?_, rfl⟩
    -- A range that holds the last byte ends with the file, so that no range follows it.
    rintro ⟨r, hr, hlo, hhi⟩
    obtain ⟨before, behind, hfree⟩ := List.append_of_mem hr
    have hstop : r.stop = l.fileEnd := by
      have hle : r.stop - 1 < l.fileEnd := by
        refine hlt _ ⟨r, hr, ?_⟩
        simp only [FreeRange.Holds, FreeRange.stop] at *
        omega
      omega
    cases behind with
    | nil => exact hlast r (by simp [hfree]) hstop
    | cons next behind =>
      rw [hfree, FreeRange.spaced_append] at hs
      obtain ⟨-, ⟨-, hbehind, hnext, -⟩, -⟩ := hs
      have hgap := hbehind next (by simp)
      have hnext_lt := hlt next.offset
        ⟨next, by simp [hfree], Nat.le_refl _, Nat.lt_add_of_pos_right hnext⟩
      omega

/-- What is left of the free ranges and of the file when the bytes of a window are given up. -/
structure Released (l : Layout) (w : Window) (l' : Layout) : Prop where
  spaced : FreeRange.Spaced l'.free
  fileEnd_le : l'.fileEnd ≤ l.fileEnd
  covers_iff : ∀ b, FreeRange.Covers l'.free b ↔
    (w.Holds b ∨ FreeRange.Covers l.free b) ∧ b < l'.fileEnd
  covers_cut : ∀ b, l'.fileEnd ≤ b → b < l.fileEnd → w.Holds b ∨ FreeRange.Covers l.free b
  last_not_free : w.size ≠ 0 → l'.fileEnd ≠ 0 →
    ¬ (w.Holds (l'.fileEnd - 1) ∨ FreeRange.Covers l.free (l'.fileEnd - 1))
  sizeSum_eq : FreeRange.sizeSum l'.free + l.fileEnd =
    w.size + FreeRange.sizeSum l.free + l'.fileEnd

theorem released_release {l : Layout} {w : Window} (h : l.Consistent) (hw : w ∈ l.windows) :
    Released l w (l.release w) := by
  have hwindow : ∀ b, w.Holds b → Window.Covers l.windows b := fun b hb => ⟨w, hw, hb⟩
  rw [release]
  split
  · rename_i hempty
    have hno : ∀ b, ¬ w.Holds b := fun b hb =>
      absurd (Window.size_pos_of_holds hb) (by omega)
    refine ⟨h.spaced, Nat.le_refl _, fun b => ?_, fun b hlo hhi => absurd hhi (Nat.not_lt.2 hlo),
      fun hne => absurd hempty hne, by omega⟩
    constructor
    · exact fun hb => ⟨.inr hb, h.free_lt b hb⟩
    · rintro ⟨hb | hb, -⟩
      · exact absurd hb (hno b)
      · exact hb
  · rename_i hsize
    let f : FreeRange := { offset := w.offset, size := w.size }
    have hholds : ∀ b, f.Holds b ↔ w.Holds b := fun b => Iff.rfl
    -- A free range that overlapped the window would share the larger of their first bytes with it.
    have hdisjoint : ∀ r ∈ l.free, r.stop ≤ f.offset ∨ f.stop ≤ r.offset := by
      intro r hr
      have hpos := FreeRange.size_pos_of_spaced h.spaced hr
      refine Classical.byContradiction fun hover => ?_
      refine h.not_free (max w.offset r.offset) (hwindow _ ?_) ⟨r, hr, ?_⟩
      · simp only [Window.Holds, Window.stop, FreeRange.stop, f] at *
        omega
      · simp only [FreeRange.Holds, FreeRange.stop, f] at *
        omega
    have hs := FreeRange.spaced_insert (f := f) (Nat.pos_of_ne_zero hsize) h.spaced hdisjoint
    have ht := trimmed_trim (l := { l with free := FreeRange.insert f l.free }) hs
      (fun b hb => by
        rcases FreeRange.covers_insert.1 hb with hb | hb
        · exact h.window_lt b (hwindow b hb)
        · exact h.free_lt b hb)
    refine ⟨ht.spaced, ht.fileEnd_le, fun b => ?_, fun b hlo hhi => ?_,
      fun _ hne => ?_, ?_⟩
    · rw [ht.covers_iff, FreeRange.covers_insert, hholds]
    · exact FreeRange.covers_insert.1 (ht.covers_cut b hlo hhi)
    · exact fun hlast => ht.last_not_free hne (FreeRange.covers_insert.2 hlast)
    · have hsum := ht.sizeSum_eq
      rwa [FreeRange.sizeSum_insert] at hsum

/-- The layout when the window `w` is given up, so that the windows `rest` are left. -/
def without (l : Layout) (w : Window) (rest : List Window) : Layout :=
  { l.release w with windows := rest }

variable {l : Layout} {w : Window} {rest : List Window} {page : PageId} {size b : Nat}

/-- A byte of the window that is given up lies in none of the others. -/
theorem not_covers_rest (h : l.Consistent) (hp : l.windows.Perm (w :: rest)) (hb : w.Holds b) :
    ¬ Window.Covers rest b := by
  rintro ⟨v, hv, hvb⟩
  have hpair := (hp.pairwise_iff Window.Apart.symm).1 h.windows_apart
  exact (List.rel_of_pairwise_cons hpair hv) b hb hvb

theorem Consistent.without (h : l.Consistent) (hp : l.windows.Perm (w :: rest)) :
    (l.without w rest).Consistent := by
  have hr := released_release h (hp.mem_iff.2 List.mem_cons_self)
  have hcovers : ∀ b, Window.Covers rest b → Window.Covers l.windows b := fun b hb =>
    (Window.covers_of_perm hp).2 (Window.covers_cons.2 (.inr hb))
  -- What the other windows hold was neither free nor held by `w`, so that it is not cut off.
  have hkept : ∀ b, Window.Covers rest b → ¬ (w.Holds b ∨ FreeRange.Covers l.free b) := by
    rintro b hb (hw | hf)
    · exact not_covers_rest h hp hw hb
    · exact h.not_free b (hcovers b hb) hf
  refine ⟨?_, ?_, hr.spaced, fun b hb hf => ?_, fun b hb => ?_, fun b hb => ?_⟩
  · have hn := (hp.map _).nodup_iff.1 h.pages_nodup
    exact (List.nodup_cons.1 hn).2
  · exact (List.pairwise_cons.1 ((hp.pairwise_iff Window.Apart.symm).1 h.windows_apart)).2
  · exact hkept b hb ((hr.covers_iff b).1 hf).1
  · refine Nat.lt_of_not_le fun hle => hkept b hb ?_
    exact hr.covers_cut b hle (h.window_lt b (hcovers b hb))
  · exact ((hr.covers_iff b).1 hb).2

/-- Giving up a window leaks nothing, and makes nothing good that had leaked. -/
theorem leaked_without (h : l.Consistent) (hp : l.windows.Perm (w :: rest)) :
    (l.without w rest).Leaked b ↔ l.Leaked b := by
  have hr := released_release h (hp.mem_iff.2 List.mem_cons_self)
  have hcut := hr.covers_cut b
  have hle := hr.fileEnd_le
  simp only [Leaked, Layout.without, hr.covers_iff b, Window.covers_of_perm hp, Window.covers_cons]
  constructor
  · rintro ⟨hlt, hrest, hfree⟩
    have hno : ¬ (w.Holds b ∨ FreeRange.Covers l.free b) := fun hb => hfree ⟨hb, hlt⟩
    exact ⟨by omega, fun hb => hb.elim (hno ∘ .inl) hrest, hno ∘ .inr⟩
  · rintro ⟨hlt, hwindows, hfree⟩
    have hno : ¬ (w.Holds b ∨ FreeRange.Covers l.free b) := fun hb =>
      hb.elim (hwindows ∘ .inl) hfree
    refine ⟨Nat.lt_of_not_le fun hle => hno (hcut hle hlt), hwindows ∘ .inr, fun hb => hno hb.1⟩

/-! ## A new window -/

/-- What finding room for `size` bytes at `offset` does to the free ranges and to the file. -/
structure Allocated (l : Layout) (size offset : Nat) (l' : Layout) : Prop where
  spaced : FreeRange.Spaced l'.free
  fileEnd_le : l.fileEnd ≤ l'.fileEnd
  /-- The bytes that are taken were free, or lie behind the end. -/
  taken : ∀ b, offset ≤ b → b < offset + size →
    b < l'.fileEnd ∧ (FreeRange.Covers l.free b ∨ l.fileEnd ≤ b)
  covers_iff : ∀ b, FreeRange.Covers l'.free b ↔
    FreeRange.Covers l.free b ∧ ¬ (offset ≤ b ∧ b < offset + size)
  /-- The file grows by bytes that are taken. -/
  grown : ∀ b, l.fileEnd ≤ b → b < l'.fileEnd → offset ≤ b ∧ b < offset + size
  sizeSum_eq : FreeRange.sizeSum l'.free + size + l.fileEnd =
    FreeRange.sizeSum l.free + l'.fileEnd

theorem allocated_allocate (h : l.Consistent) (size : Nat) :
    Allocated l size (l.allocate size).1 (l.allocate size).2 := by
  rw [allocate]
  split
  · rename_i hzero
    subst hzero
    refine ⟨h.spaced, Nat.le_refl _, fun b hlo hhi => absurd hhi (Nat.not_lt.2 hlo), fun b => ?_,
      fun b hlo hhi => absurd hhi (Nat.not_lt.2 hlo), rfl⟩
    exact ⟨fun hb => ⟨hb, by omega⟩, And.left⟩
  · split
    · rename_i offset free htake
      refine ⟨FreeRange.spaced_of_take? h.spaced htake, Nat.le_refl _, fun b hlo hhi => ?_,
        fun b => FreeRange.covers_of_take? h.spaced htake,
        fun b hlo hhi => absurd hhi (Nat.not_lt.2 hlo), ?_⟩
      · have hb := FreeRange.covers_taken htake hlo hhi
        exact ⟨h.free_lt b hb, .inl hb⟩
      · exact congrArg (· + l.fileEnd) (FreeRange.sizeSum_of_take? htake)
    · refine ⟨h.spaced, Nat.le_add_right .., fun b hlo hhi => ⟨hhi, .inr hlo⟩, fun b => ?_,
        fun b hlo hhi => ⟨hlo, hhi⟩, ?_⟩
      · exact ⟨fun hb => ⟨hb, fun hge => absurd (h.free_lt b hb) (Nat.not_lt.2 hge.1)⟩, And.left⟩
      · dsimp only
        omega

@[simp] theorem windows_allocate (l : Layout) (size : Nat) :
    (l.allocate size).2.windows = l.windows := by
  rw [allocate]
  split
  · rfl
  · split <;> rfl

/-- The window that a page gets. -/
def newWindow (l : Layout) (page : PageId) (size : Nat) : Window :=
  { page, offset := (l.allocate size).1, size }

/-- The layout with a window for one more page. -/
def withNew (l : Layout) (page : PageId) (size : Nat) : Layout :=
  { (l.allocate size).2 with windows := l.windows ++ [l.newWindow page size] }

theorem covers_withNew : Window.Covers (l.withNew page size).windows b ↔
    Window.Covers l.windows b ∨ (l.newWindow page size).Holds b := by
  rw [withNew, Window.covers_append, Window.covers_cons]
  simp [Window.Covers]

/-- The new window holds no byte of another. -/
theorem not_covers_newWindow (page : PageId) (h : l.Consistent)
    (hb : (l.newWindow page size).Holds b) :
    ¬ Window.Covers l.windows b := by
  intro hw
  rcases ((allocated_allocate h size).taken b hb.1 hb.2).2 with hfree | hend
  · exact h.not_free b hw hfree
  · exact absurd (h.window_lt b hw) (Nat.not_lt.2 hend)

theorem Consistent.withNew (h : l.Consistent) (hpage : page ∉ l.windows.map (·.page))
    (size : Nat) : (l.withNew page size).Consistent := by
  have ha := allocated_allocate h size
  refine ⟨?_, ?_, ha.spaced, fun b hb hf => ?_, fun b hb => ?_, fun b hb => ?_⟩
  · rw [Layout.withNew, List.map_append, List.nodup_append]
    refine ⟨h.pages_nodup, by simp, ?_⟩
    rintro x hx y hy rfl
    rw [List.map_singleton, List.mem_singleton] at hy
    subst hy
    exact hpage hx
  · rw [Layout.withNew, List.pairwise_append]
    refine ⟨h.windows_apart, List.pairwise_singleton .., fun v hv w hw b hvb hwb => ?_⟩
    rw [List.mem_singleton.1 hw] at hwb
    exact not_covers_newWindow _ h hwb ⟨v, hv, hvb⟩
  · obtain ⟨hfree, hnot⟩ := (ha.covers_iff b).1 hf
    rcases covers_withNew.1 hb with hb | hb
    · exact h.not_free b hb hfree
    · exact hnot hb
  · rcases covers_withNew.1 hb with hb | hb
    · exact Nat.lt_of_lt_of_le (h.window_lt b hb) ha.fileEnd_le
    · exact (ha.taken b hb.1 hb.2).1
  · exact Nat.lt_of_lt_of_le (h.free_lt b ((ha.covers_iff b).1 hb).1) ha.fileEnd_le

/-- A new window leaks nothing, and makes nothing good that had leaked. -/
theorem leaked_withNew (h : l.Consistent) :
    (l.withNew page size).Leaked b ↔ l.Leaked b := by
  have ha := allocated_allocate h size
  have hgrown := ha.grown b
  have hle := ha.fileEnd_le
  rw [Leaked, Leaked, covers_withNew]
  simp only [Layout.withNew, ha.covers_iff b]
  constructor
  · rintro ⟨hlt, hwindows, hfree⟩
    have hnew : ¬ ((l.allocate size).1 ≤ b ∧ b < (l.allocate size).1 + size) := hwindows ∘ .inr
    exact ⟨Nat.lt_of_not_le fun hle => hnew (hgrown hle hlt), hwindows ∘ .inl,
      fun hb => hfree ⟨hb, hnew⟩⟩
  · rintro ⟨hlt, hwindows, hfree⟩
    refine ⟨by omega, ?_, fun hb => hfree hb.1⟩
    rintro (hb | hb)
    · exact hwindows hb
    · rcases (ha.taken b hb.1 hb.2).2 with hb | hb
      · exact hfree hb
      · omega

end Layout

end StatefulPages
