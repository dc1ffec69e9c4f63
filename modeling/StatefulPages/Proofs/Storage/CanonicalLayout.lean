import StatefulPages.Proofs.Storage.Consistency
import StatefulPages.Storage.WindowTable

/-!
# The layouts that window tables have

Whatever windows are made and removed, the table of a data file that was empty stays `IsCanonical`:
its free ranges are the gaps between its windows, and its file ends with the last of them, so that
both are determined by the windows.

The invariant behind this is `Tight`: the layout is consistent, no byte has leaked, and a window
holds the last byte. Each change is one window given up (`Tight.without`) or made
(`Tight.withNew`); `Invariant.run` takes what such steps keep through all changes.
-/

namespace StatefulPages

namespace Layout

variable {l : Layout} {w : Window} {ws rest : List Window} {r : FreeRange} {page : PageId}
  {size b : Nat}

/-! ## Tight layouts -/

/-- Indicates a consistent layout in which no byte has leaked and a window holds the last byte. -/
structure Tight (l : Layout) : Prop extends Consistent l where
  not_leaked : ∀ b, ¬ l.Leaked b
  last_covered : l.fileEnd ≠ 0 → Window.Covers l.windows (l.fileEnd - 1)
  sizeSum_eq : sizeSum l.windows + FreeRange.sizeSum l.free = l.fileEnd

theorem tight_empty : Tight {} where
  pages_nodup := .nil
  windows_apart := .nil
  spaced := trivial
  not_free := fun _ _ => FreeRange.not_covers_nil
  window_lt := fun b h => by simp [Window.Covers] at h
  free_lt := fun _ h => absurd h FreeRange.not_covers_nil
  not_leaked := fun b h => absurd h.1 (Nat.not_lt_zero b)
  last_covered := fun h => absurd rfl h
  sizeSum_eq := rfl

theorem Tight.without (h : l.Tight) (hp : l.windows.Perm (w :: rest)) :
    (l.without w rest).Tight := by
  have hr := released_release h.toConsistent (hp.mem_iff.2 List.mem_cons_self)
  have hleak : ∀ b, ¬ (l.without w rest).Leaked b := fun b hb =>
    h.not_leaked b ((leaked_without h.toConsistent hp).1 hb)
  refine ⟨h.toConsistent.without hp, hleak, fun hne => ?_, ?_⟩
  · -- The last byte is not free, as free bytes at the end are cut off; and it has not leaked.
    have hlt : (l.release w).fileEnd - 1 < (l.release w).fileEnd := Nat.sub_one_lt hne
    refine Classical.byContradiction fun hno => hleak _ ⟨hlt, hno, fun hfree => ?_⟩
    have hheld := ((hr.covers_iff _).1 hfree).1
    rcases Nat.eq_zero_or_pos w.size with hsize | hsize
    · have hsame : l.release w = l := by rw [release, if_pos hsize]
      have hfree' : FreeRange.Covers l.free (l.fileEnd - 1) := by
        rw [Layout.without, hsame] at hfree
        exact hfree
      exact h.not_free _ (h.last_covered (hsame ▸ hne)) hfree'
    · exact hr.last_not_free (Nat.ne_of_gt hsize) hne hheld
  · have hsum := hr.sizeSum_eq
    have hwindows := sizeSum_of_perm hp
    have htotal := h.sizeSum_eq
    rw [sizeSum] at hwindows
    show sizeSum rest + FreeRange.sizeSum (l.release w).free = (l.release w).fileEnd
    omega

theorem Tight.withNew (h : l.Tight) (hpage : page ∉ l.windows.map (·.page)) (size : Nat) :
    (l.withNew page size).Tight := by
  have ha := allocated_allocate h.toConsistent size
  refine ⟨h.toConsistent.withNew hpage size,
    fun b hb => h.not_leaked b ((leaked_withNew h.toConsistent).1 hb), fun hne => ?_, ?_⟩
  · rw [covers_withNew]
    show _ ∨ (l.newWindow page size).Holds ((l.allocate size).2.fileEnd - 1)
    have hlt : (l.allocate size).2.fileEnd - 1 < (l.allocate size).2.fileEnd := Nat.sub_one_lt hne
    rcases Nat.lt_or_ge ((l.allocate size).2.fileEnd - 1) l.fileEnd with hold | hgrown
    · have hsame : (l.allocate size).2.fileEnd = l.fileEnd := by
        have := ha.fileEnd_le
        omega
      exact .inl (hsame ▸ h.last_covered (by omega))
    · exact .inr (ha.grown _ hgrown hlt)
  · have hsum := ha.sizeSum_eq
    have htotal := h.sizeSum_eq
    show sizeSum (l.windows ++ [l.newWindow page size]) +
      FreeRange.sizeSum (l.allocate size).2.free = (l.allocate size).2.fileEnd
    rw [sizeSum_append]
    simp only [sizeSum, newWindow]
    omega

/-! ## Gaps -/

/-- Where the last of the windows ends that are not empty; zero if there is none. -/
def lastStop : List Window → Nat
  | [] => 0
  | w :: ws => if w.size = 0 then lastStop ws else max w.stop (lastStop ws)

/-- Indicates a maximal gap between windows: no window reaches into it, behind it is a window, and
in front of it a window or the start of the file. -/
structure IsGap (ws : List Window) (r : FreeRange) : Prop where
  size_pos : 0 < r.size
  uncovered : ∀ b, r.Holds b → ¬ Window.Covers ws b
  before : r.offset = 0 ∨ Window.Covers ws (r.offset - 1)
  behind : Window.Covers ws r.stop

theorem lastStop_of_perm {vs : List Window} (h : ws.Perm vs) : lastStop ws = lastStop vs := by
  induction h with
  | nil => rfl
  | cons w _ ih => rw [lastStop, lastStop, ih]
  | swap w v ws =>
    simp only [lastStop]
    split
    · rfl
    · split
      · rfl
      · exact Nat.max_left_comm ..
  | trans _ _ ih₁ ih₂ => exact ih₁.trans ih₂

/-- The order of the windows makes no difference to the gaps. -/
theorem IsGap.of_perm {vs : List Window} {r : FreeRange} (hgap : IsGap ws r) (h : ws.Perm vs) :
    IsGap vs r where
  size_pos := hgap.size_pos
  uncovered := fun b hb hvs => hgap.uncovered b hb ((Window.covers_of_perm h).2 hvs)
  before := hgap.before.imp_right (Window.covers_of_perm h).1
  behind := (Window.covers_of_perm h).1 hgap.behind

theorem lt_lastStop (h : Window.Covers ws b) : b < lastStop ws := by
  induction ws with
  | nil => simp [Window.Covers] at h
  | cons w ws ih =>
    rw [lastStop]
    rcases Window.covers_cons.1 h with hw | hws
    · rw [if_neg (Nat.ne_of_gt (Window.size_pos_of_holds hw))]
      exact Nat.lt_of_lt_of_le hw.2 (Nat.le_max_left ..)
    · have := ih hws
      split
      · exact this
      · exact Nat.lt_of_lt_of_le this (Nat.le_max_right ..)

theorem covers_lastStop (h : lastStop ws ≠ 0) : Window.Covers ws (lastStop ws - 1) := by
  induction ws with
  | nil => exact absurd rfl h
  | cons w ws ih =>
    rw [lastStop] at h ⊢
    rw [Window.covers_cons]
    split at h
    · rename_i hsize
      rw [if_pos hsize]
      exact .inr (ih h)
    · rename_i hsize
      rw [if_neg hsize]
      rcases Nat.le_total (lastStop ws) w.stop with hle | hle
      · rw [Nat.max_eq_left hle]
        left
        simp only [Window.Holds, Window.stop] at *
        omega
      · rw [Nat.max_eq_right hle]
        right
        exact ih (by simp only [Window.stop] at hle; omega)

/-- A tight layout ends with its last window. -/
theorem Tight.fileEnd_eq (h : l.Tight) : l.fileEnd = lastStop l.windows := by
  have hle : l.fileEnd ≤ lastStop l.windows := by
    refine Nat.le_of_not_lt fun hlt => ?_
    have := lt_lastStop (h.last_covered (by omega))
    omega
  refine Nat.le_antisymm hle (Nat.le_of_not_lt fun hlt => ?_)
  have := h.window_lt _ (covers_lastStop (by omega))
  omega

/-- A byte of the file is free exactly if no window holds it and it lies before the end. -/
theorem Tight.covers_free_iff (h : l.Tight) :
    FreeRange.Covers l.free b ↔ b < l.fileEnd ∧ ¬ Window.Covers l.windows b := by
  refine ⟨fun hb => ⟨h.free_lt b hb, fun hw => h.not_free b hw hb⟩, fun hb => ?_⟩
  exact Classical.byContradiction fun hno => h.not_leaked b ⟨hb.1, hb.2, hno⟩

/-- The free ranges of a tight layout are the gaps between its windows. -/
theorem Tight.mem_free_iff (h : l.Tight) : r ∈ l.free ↔ IsGap l.windows r := by
  rw [FreeRange.mem_iff_of_spaced h.spaced]
  constructor
  · intro hrun
    obtain ⟨hpos, hall, hstop, hstart⟩ := hrun
    have hlast : r.stop - 1 < l.fileEnd :=
      (h.covers_free_iff.1 (hall _ ⟨by simp only [FreeRange.stop]; omega,
        by simp only [FreeRange.stop]; omega⟩)).1
    -- The range does not end with the file, as a window holds the last byte.
    have hne : r.stop ≠ l.fileEnd := by
      intro heq
      have hcov := h.last_covered (by omega)
      refine h.not_free _ hcov (hall _ ?_)
      simp only [FreeRange.Holds, FreeRange.stop] at *
      omega
    refine ⟨hpos, fun b hb => (h.covers_free_iff.1 (hall b hb)).2, ?_, ?_⟩
    · rcases Nat.eq_zero_or_pos r.offset with hzero | hpos'
      · exact .inl hzero
      · refine .inr (Classical.byContradiction fun hno => hstart (Nat.ne_of_gt hpos') ?_)
        refine h.covers_free_iff.2 ⟨?_, hno⟩
        simp only [FreeRange.stop] at *
        omega
    · refine Classical.byContradiction fun hno => hstop (h.covers_free_iff.2 ⟨?_, hno⟩)
      omega
  · intro hgap
    have hbehind := h.window_lt _ hgap.behind
    refine ⟨hgap.size_pos, fun b hb => h.covers_free_iff.2 ⟨?_, hgap.uncovered b hb⟩,
      h.not_free _ hgap.behind, fun hne => ?_⟩
    · exact Nat.lt_trans hb.2 hbehind
    · rcases hgap.before with hzero | hcov
      · exact absurd hzero hne
      · exact h.not_free _ hcov

end Layout

namespace WindowTable

variable {t : WindowTable} {w : Window} {ws rest : List Window} {page : PageId} {size : Nat}

/-! ## What a table keeps -/

/-- The invariant of window tables: the layout is tight, and the total is right. -/
structure WellKept (t : WindowTable) : Prop where
  tight : t.toLayout.Tight
  total_eq : t.total = Layout.sizeSum t.windows

theorem wellKept_empty (budget : Nat) : WellKept { budget } :=
  ⟨Layout.tight_empty, rfl⟩

/-- The total stays right when a window is given up. -/
theorem total_discard (h : t.total = Layout.sizeSum t.windows) (hp : t.windows.Perm (w :: rest)) :
    (t.discard w rest).total = Layout.sizeSum rest := by
  show t.total - w.size = Layout.sizeSum rest
  rw [h, Layout.sizeSum_of_perm hp, Layout.sizeSum, Nat.add_sub_cancel_left]

theorem WellKept.discard (h : t.WellKept) (hp : t.windows.Perm (w :: rest)) :
    (t.discard w rest).WellKept :=
  ⟨h.tight.without hp, total_discard h.total_eq hp⟩

/-- Removing a page gives up its window, if it has one. -/
theorem remove_cases (t : WindowTable) (page : PageId) :
    (∃ w before behind, t.windows = before ++ w :: behind ∧ w.page = page ∧
      (∀ v ∈ before, v.page ≠ page) ∧ t.remove page = t.discard w (before ++ behind)) ∨
    ((∀ v ∈ t.windows, v.page ≠ page) ∧ t.remove page = t) := by
  rw [remove]
  split
  · rename_i w hw
    obtain ⟨hpage, before, behind, heq, hbefore⟩ := List.find?_eq_some_iff_append.1 hw
    have hpage : w.page = page := by simpa using hpage
    have hne : ∀ v ∈ before, v.page ≠ page := by simpa using hbefore
    refine .inl ⟨w, before, behind, heq, hpage, hne, ?_⟩
    rw [heq, List.eraseP_append_right _ (by simpa using hne), List.eraseP_cons_of_pos (by simpa)]
  · rename_i hnone
    exact .inr ⟨by simpa [find?] using hnone, rfl⟩

/-- What giving up a window keeps is kept when the window of a page is removed. -/
theorem remove_induction {P : WindowTable → Prop}
    (step : ∀ (t : WindowTable) w rest, t.windows.Perm (w :: rest) → P t → P (t.discard w rest))
    (h : P t) (page : PageId) : P (t.remove page) := by
  rcases remove_cases t page with ⟨w, before, behind, heq, -, -, hremove⟩ | ⟨-, hremove⟩
  · rw [hremove]
    exact step t w _ (heq ▸ List.perm_middle) h
  · rwa [hremove]

/-- The windows of the other pages are left, in their order. -/
theorem windows_remove (hpages : (t.windows.map (·.page)).Nodup) (page : PageId) :
    (t.remove page).windows = t.windows.filter (·.page ≠ page) := by
  rcases remove_cases t page with ⟨w, before, behind, heq, hw, hbefore, hremove⟩ | ⟨hno, hremove⟩
  · rw [heq, List.map_append, List.map_cons, List.nodup_append] at hpages
    have hbehind : ∀ v ∈ behind, v.page ≠ page := by
      intro v hv hpage
      exact (List.nodup_cons.1 hpages.2.1).1 (List.mem_map.2 ⟨v, hv, hpage.trans hw.symm⟩)
    rw [hremove, heq, List.filter_append, List.filter_cons_of_neg (by simpa using hw),
      List.filter_eq_self.2 (by simpa using hbefore), List.filter_eq_self.2 (by simpa using hbehind)]
    rfl
  · rw [hremove, List.filter_eq_self.2 (by simpa using hno)]

theorem mem_windows_remove_iff (hpages : (t.windows.map (·.page)).Nodup) :
    w ∈ (t.remove page).windows ↔ w ∈ t.windows ∧ w.page ≠ page := by
  rw [windows_remove hpages, List.mem_filter, decide_eq_true_eq]

theorem find?_remove (hpages : (t.windows.map (·.page)).Nodup) (page : PageId) :
    (t.remove page).find? page = none :=
  List.find?_eq_none.2 fun w hw => by simpa using ((mem_windows_remove_iff hpages).1 hw).2

@[simp] theorem budget_remove (t : WindowTable) (page : PageId) :
    (t.remove page).budget = t.budget := by
  rcases remove_cases t page with ⟨w, before, behind, -, -, -, hremove⟩ | ⟨-, hremove⟩
  · rw [hremove]
    rfl
  · rw [hremove]

/-- What giving up the oldest window keeps is kept until a new window fits. -/
theorem evict_induction {P : WindowTable → Prop}
    (step : ∀ (t : WindowTable) w rest, t.windows = w :: rest → P t → P (t.discard w rest))
    (hws : t.windows = ws) (h : P t) : P (evict size ws t) := by
  induction ws generalizing t with
  | nil => exact h
  | cons w rest ih =>
    rw [evict]
    split
    · exact h
    · exact ih rfl (step t w rest hws h)

@[simp] theorem budget_evict (ws : List Window) (t : WindowTable) :
    (evict size ws t).budget = t.budget := by
  induction ws generalizing t with
  | nil => rfl
  | cons w rest ih =>
    rw [evict]
    split
    · rfl
    · rw [ih]
      rfl

/-- The windows that are left when the oldest are given up until `size` more bytes fit. -/
def keptFor (budget size : Nat) : List Window → List Window
  | [] => []
  | w :: rest =>
    if Layout.sizeSum (w :: rest) + size ≤ budget then w :: rest else keptFor budget size rest

theorem windows_evict (h : t.total = Layout.sizeSum t.windows) (hws : t.windows = ws) :
    (evict size ws t).windows = keptFor t.budget size ws := by
  induction ws generalizing t with
  | nil => exact hws
  | cons w rest ih =>
    rw [evict, keptFor, h, hws]
    split
    · exact hws
    · exact ih (t := t.discard w rest) (total_discard h (hws ▸ List.Perm.refl _)) rfl

/-- The table for which a new window is made: the page has none, and there is room in the budget,
or no window is left. -/
def cleared (t : WindowTable) (page : PageId) (size : Nat) : WindowTable :=
  evict size (t.remove page).windows (t.remove page)

theorem create_eq (t : WindowTable) (page : PageId) (size : Nat) :
    t.create page size = (t.cleared page size).append page size := rfl

/-- What giving up a window keeps is kept when room is made for a page. -/
theorem cleared_induction {P : WindowTable → Prop}
    (step : ∀ (t : WindowTable) w rest, t.windows.Perm (w :: rest) → P t → P (t.discard w rest))
    (h : P t) (page : PageId) (size : Nat) : P (t.cleared page size) :=
  evict_induction (fun t w rest heq => step t w rest (heq ▸ List.Perm.refl _)) rfl
    (remove_induction step h page)

theorem WellKept.remove (h : t.WellKept) (page : PageId) : (t.remove page).WellKept :=
  remove_induction (fun _ _ _ hp ht => ht.discard hp) h page

theorem WellKept.cleared (h : t.WellKept) (page : PageId) (size : Nat) :
    (t.cleared page size).WellKept :=
  cleared_induction (fun _ _ _ hp ht => ht.discard hp) h page size

/-- The total stays right when a page is removed. -/
theorem total_remove (h : t.total = Layout.sizeSum t.windows) (page : PageId) :
    (t.remove page).total = Layout.sizeSum (t.remove page).windows :=
  remove_induction (P := fun t => t.total = Layout.sizeSum t.windows)
    (fun _ _ _ hp ht => total_discard ht hp) h page

/-- The total stays right when room is made for a page. -/
theorem total_cleared (h : t.total = Layout.sizeSum t.windows) (page : PageId) (size : Nat) :
    (t.cleared page size).total = Layout.sizeSum (t.cleared page size).windows :=
  cleared_induction (P := fun t => t.total = Layout.sizeSum t.windows)
    (fun _ _ _ hp ht => total_discard ht hp) h page size

theorem windows_cleared (hpages : (t.windows.map (·.page)).Nodup)
    (htotal : t.total = Layout.sizeSum t.windows) (page : PageId) (size : Nat) :
    (t.cleared page size).windows =
      keptFor t.budget size (t.windows.filter (·.page ≠ page)) := by
  rw [cleared, windows_evict (total_remove htotal page) rfl, budget_remove, windows_remove hpages]

@[simp] theorem budget_cleared (t : WindowTable) (page : PageId) (size : Nat) :
    (t.cleared page size).budget = t.budget := by
  rw [cleared, budget_evict, budget_remove]

/-- The windows for which there is room are the newest of those of the other pages. -/
theorem windows_cleared_suffix (t : WindowTable) (page : PageId) (size : Nat) :
    (t.cleared page size).windows <:+ (t.remove page).windows := by
  refine evict_induction (P := fun u => u.windows <:+ (t.remove page).windows) ?_ rfl
    (List.suffix_refl _)
  intro u w rest heq hsuffix
  rw [heq] at hsuffix
  exact (List.suffix_cons w rest).trans hsuffix

/-- What is left are windows of other pages. -/
theorem mem_windows_of_cleared (hpages : (t.windows.map (·.page)).Nodup)
    (hw : w ∈ (t.cleared page size).windows) : w ∈ t.windows ∧ w.page ≠ page :=
  (mem_windows_remove_iff hpages).1 ((windows_cleared_suffix t page size).subset hw)

theorem page_notMem_cleared (hpages : (t.windows.map (·.page)).Nodup) (page : PageId) (size : Nat) :
    page ∉ (t.cleared page size).windows.map (·.page) := by
  intro hmem
  obtain ⟨w, hw, hpage⟩ := List.mem_map.1 hmem
  exact (mem_windows_of_cleared hpages hw).2 hpage

theorem append_eq (t : WindowTable) (page : PageId) (size : Nat) :
    t.append page size = (t.toLayout.newWindow page size,
      { t with toLayout := t.toLayout.withNew page size, total := t.total + size }) := by
  simp only [append, Layout.newWindow, Layout.withNew, Layout.windows_allocate]

/-- The total stays right when a window is made. -/
theorem total_append (h : t.total = Layout.sizeSum t.windows) (page : PageId) (size : Nat) :
    (t.append page size).2.total = Layout.sizeSum (t.append page size).2.windows := by
  rw [append_eq]
  show t.total + size = Layout.sizeSum (t.windows ++ [t.toLayout.newWindow page size])
  rw [Layout.sizeSum_append, h]
  rfl

theorem WellKept.append (h : t.WellKept) (hpage : page ∉ t.windows.map (·.page)) (size : Nat) :
    (t.append page size).2.WellKept := by
  refine ⟨?_, total_append h.total_eq page size⟩
  rw [append_eq]
  exact h.tight.withNew hpage size

/-! ## Changes -/

/-- A change of a window table. -/
inductive Change where
  | create (page : PageId) (size : Nat)
  | remove (page : PageId)
  deriving DecidableEq, Repr

/-- The table after a change. -/
def apply (t : WindowTable) : Change → WindowTable
  | .create page size => (t.create page size).2
  | .remove page => t.remove page

/-- The table after several changes. -/
def run (t : WindowTable) (changes : List Change) : WindowTable :=
  changes.foldl apply t

/-- Indicates what giving up a window keeps, and making one for a page that has none. -/
structure Invariant (P : WindowTable → Prop) : Prop where
  pages_nodup : ∀ {t : WindowTable}, P t → (t.windows.map (·.page)).Nodup
  discard : ∀ (t : WindowTable) w rest, t.windows.Perm (w :: rest) → P t → P (t.discard w rest)
  append : ∀ (t : WindowTable) page, page ∉ t.windows.map (·.page) → P t →
    ∀ size, P (t.append page size).2

section

variable {P : WindowTable → Prop}

theorem Invariant.create (hP : Invariant P) (h : P t) (page : PageId) (size : Nat) :
    P (t.create page size).2 :=
  hP.append _ page (page_notMem_cleared (hP.pages_nodup h) page size)
    (cleared_induction hP.discard h page size) size

theorem Invariant.apply (hP : Invariant P) (h : P t) (change : Change) : P (t.apply change) := by
  cases change with
  | create page size => exact hP.create h page size
  | remove page => exact remove_induction hP.discard h page

theorem Invariant.run (hP : Invariant P) (h : P t) (changes : List Change) : P (t.run changes) := by
  induction changes generalizing t with
  | nil => exact h
  | cons change changes ih => exact ih (hP.apply h change)

end

theorem invariant_wellKept : Invariant WellKept where
  pages_nodup := fun h => h.tight.pages_nodup
  discard := fun _ _ _ hp h => h.discard hp
  append := fun _ _ hpage h size => h.append hpage size

theorem WellKept.create (h : t.WellKept) (page : PageId) (size : Nat) :
    (t.create page size).2.WellKept :=
  invariant_wellKept.create h page size

theorem WellKept.run (h : t.WellKept) (changes : List Change) : (t.run changes).WellKept :=
  invariant_wellKept.run h changes

@[simp] theorem page_create (t : WindowTable) (page : PageId) (size : Nat) :
    (t.create page size).1.page = page := rfl

/-- A new window comes after those that are left. -/
theorem windows_create_eq (t : WindowTable) (page : PageId) (size : Nat) :
    (t.create page size).2.windows = (t.cleared page size).windows ++ [(t.create page size).1] := by
  rw [create_eq, append_eq]
  rfl

/-- The new window is that of its page. -/
theorem find?_create (h : t.WellKept) (page : PageId) (size : Nat) :
    (t.create page size).2.find? page = some (t.create page size).1 := by
  have hnone : (t.cleared page size).windows.find? (·.page = page) = none :=
    List.find?_eq_none.2 fun w hw => by simpa using (mem_windows_of_cleared h.tight.pages_nodup hw).2
  rw [find?, windows_create_eq, List.find?_append, hnone]
  simp

/-- When a new window is given up again, those are left that were left when room was made for it. -/
theorem windows_remove_create (h : t.WellKept) (page : PageId) (size : Nat) :
    ((t.create page size).2.remove page).windows = (t.cleared page size).windows := by
  have hothers : ∀ w ∈ (t.cleared page size).windows, w.page ≠ page := fun w hw =>
    (mem_windows_of_cleared h.tight.pages_nodup hw).2
  rw [windows_remove (h.create page size).tight.pages_nodup, windows_create_eq, List.filter_append,
    List.filter_eq_self.2 (by simpa using hothers)]
  simp

/-! ## Canonical tables -/

/-- Indicates a table in which no page has two windows, no byte lies in two, the total is that of
the windows, the file ends with the last window, and the free ranges are the gaps between windows,
sorted by offset. -/
structure IsCanonical (t : WindowTable) : Prop where
  pages_nodup : (t.windows.map (·.page)).Nodup
  windows_apart : t.windows.Pairwise Window.Apart
  total_eq : t.total = Layout.sizeSum t.windows
  fileEnd_eq : t.fileEnd = Layout.lastStop t.windows
  free_sorted : t.free.Pairwise fun r s => r.offset < s.offset
  mem_free_iff : ∀ r, r ∈ t.free ↔ Layout.IsGap t.windows r

theorem WellKept.isCanonical (h : t.WellKept) : t.IsCanonical where
  pages_nodup := h.tight.pages_nodup
  windows_apart := h.tight.windows_apart
  total_eq := h.total_eq
  fileEnd_eq := h.tight.fileEnd_eq
  free_sorted := FreeRange.pairwise_offset_of_spaced h.tight.spaced
  mem_free_iff := fun _ => h.tight.mem_free_iff

/-- The windows of a canonical table determine the free ranges and the end of the file. -/
theorem IsCanonical.free_eq {t t' : WindowTable} (h : t.IsCanonical) (h' : t'.IsCanonical)
    (hws : t.windows.Perm t'.windows) : t.free = t'.free ∧ t.fileEnd = t'.fileEnd := by
  constructor
  · refine FreeRange.eq_of_mem_iff h.free_sorted h'.free_sorted fun r => ?_
    rw [h.mem_free_iff, h'.mem_free_iff]
    exact ⟨fun hgap => hgap.of_perm hws, fun hgap => hgap.of_perm hws.symm⟩
  · rw [h.fileEnd_eq, h'.fileEnd_eq, Layout.lastStop_of_perm hws]

/-- Whatever windows were made and removed since the file was empty, the table is canonical. No byte
is lost, no free range lies at the end of the file, and another such table with these windows, in
whatever order, has the same free ranges and the same end. -/
theorem isCanonical_run (budget : Nat) (changes : List Change) :
    let t := run { budget } changes
    t.IsCanonical ∧ t.fileEnd = t.total + FreeRange.sizeSum t.free ∧
      (∀ r ∈ t.free, r.stop < t.fileEnd) ∧
      ∀ budget' changes', (run { budget := budget' } changes').windows.Perm t.windows →
        (run { budget := budget' } changes').free = t.free ∧
          (run { budget := budget' } changes').fileEnd = t.fileEnd := by
  intro t
  have h : t.WellKept := (wellKept_empty budget).run changes
  refine ⟨h.isCanonical, ?_, fun r hr => ?_, fun budget' changes' hws => ?_⟩
  · rw [h.total_eq, h.tight.sizeSum_eq]
  · exact h.tight.window_lt _ (h.tight.mem_free_iff.1 hr).behind
  · have h' := ((wellKept_empty budget').run changes').isCanonical
    exact h'.free_eq h.isCanonical hws

/-- Page 1 is removed between two others, and a page of 4 bytes takes the start of its bytes. -/
example : (run { budget := 100 } [.create 0 5, .create 1 10, .create 2 20, .remove 1,
    .create 3 4]).free = [{ offset := 9, size := 6 }] := by
  decide

end WindowTable

end StatefulPages
