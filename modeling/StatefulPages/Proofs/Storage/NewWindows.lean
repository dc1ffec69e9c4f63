import Mathlib.Order.Bounds.Defs
import StatefulPages.Proofs.Storage.CanonicalLayout
import StatefulPages.Proofs.Storage.LayoutCheck

/-!
# What makes way for a new window, and where it goes

* `WindowTable.create_keeps_newest`: the windows that stay when one is made are the longest run of the
  newest ones with which it is within the budget (`IsNewest`), in every table that passes the check;
* `WindowTable.create_isLeast_run`: in a table whose file was empty once, the new window has the least
  offset at which no window that stays is in its way, so that what such a table does depends on its
  windows alone.
-/

namespace StatefulPages

/-! ## The newest windows -/

namespace WindowTable

variable {t : WindowTable} {ws : List Window} {page : PageId} {budget size : Nat}

/-- Indicates the longest run of the newest windows with which `size` more bytes are within the budget,
or no windows if there is no such run. -/
structure IsNewest (budget size : Nat) (ws kept : List Window) : Prop where
  suffix : kept <:+ ws
  longest : ∀ vs, vs <:+ ws → Layout.sizeSum vs + size ≤ budget → vs <:+ kept
  fits : Layout.sizeSum kept + size ≤ budget ∨
    kept = [] ∧ ∀ vs, vs <:+ ws → budget < Layout.sizeSum vs + size

theorem isNewest_keptFor (budget size : Nat) (ws : List Window) :
    IsNewest budget size ws (keptFor budget size ws) := by
  induction ws with
  | nil =>
    refine ⟨List.suffix_refl _, fun vs hvs _ => hvs, ?_⟩
    rcases Nat.lt_or_ge budget (Layout.sizeSum [] + size) with hlarge | hfits
    · exact .inr ⟨rfl, fun vs hvs => List.suffix_nil.1 hvs ▸ hlarge⟩
    · exact .inl hfits
  | cons w rest ih =>
    rw [keptFor]
    split
    · rename_i hfits
      exact ⟨List.suffix_refl _, fun vs hvs _ => hvs, .inl hfits⟩
    · -- All the windows are too many, so that the oldest one is not in the run.
      rename_i hlarge
      refine ⟨ih.suffix.trans (List.suffix_cons ..), fun vs hvs hfits => ?_, ?_⟩
      · rcases List.suffix_cons_iff.1 hvs with rfl | hvs
        · exact absurd hfits hlarge
        · exact ih.longest vs hvs hfits
      · refine ih.fits.imp_right fun hnone => ⟨hnone.1, fun vs hvs => ?_⟩
        rcases List.suffix_cons_iff.1 hvs with rfl | hvs
        · exact Nat.lt_of_not_le hlarge
        · exact hnone.2 vs hvs

/-- What a table has after a window was made. -/
theorem windows_create (hpages : (t.windows.map (·.page)).Nodup)
    (htotal : t.total = Layout.sizeSum t.windows) (page : PageId) (size : Nat) :
    (t.create page size).2.windows = keptFor t.budget size (t.windows.filter (·.page ≠ page)) ++
      [(t.create page size).1] := by
  rw [windows_create_eq, windows_cleared hpages htotal]

/-- In a table that passes the check, the windows that stay when one is made are the newest ones of the
other pages, as many as are within the budget with the new one; they stay where they are, and the table
exceeds the budget only if no other window is left. -/
theorem create_keeps_newest (h : t.check = .ok ()) (page : PageId) (size : Nat) :
    let new := (t.create page size).1
    let after := (t.create page size).2
    new.page = page ∧ new.size = size ∧
    (∃ kept, after.windows = kept ++ [new] ∧
      IsNewest t.budget size (t.windows.filter (·.page ≠ page)) kept) ∧
    (after.total ≤ t.budget ∨ after.windows = [new]) := by
  intro new after
  obtain ⟨hconsistent, htotal⟩ := check_eq_ok_iff.1 h
  have hwindows := windows_create hconsistent.pages_nodup htotal page size
  have hnewest := isNewest_keptFor t.budget size (t.windows.filter (·.page ≠ page))
  refine ⟨rfl, rfl, ⟨_, hwindows, hnewest⟩, ?_⟩
  have hafter : after.total = (t.cleared page size).total + size := by
    show (t.create page size).2.total = _
    rw [create_eq, append_eq]
  rw [hafter, total_cleared htotal, windows_cleared hconsistent.pages_nodup htotal]
  refine hnewest.fits.imp_right fun hnone => ?_
  rw [hwindows, hnone.1, List.nil_append]

/-- A table with a window of no bytes, whose budget was larger when the windows were made. -/
def crowded : WindowTable :=
  { run { budget := 12 } [.create 1 4, .create 2 0, .create 3 5, .create 4 3] with budget := 10 }

/-- Page 3 is stored again: its old window and the one of page 1 make way. -/
theorem create_keeps_newest_of_crowded :
    crowded.check = .ok () ∧
    (∃ kept, (crowded.create 3 6).2.windows = kept ++ [(crowded.create 3 6).1] ∧
      IsNewest 10 6 [⟨1, 0, 4⟩, ⟨2, 4, 0⟩, ⟨4, 9, 3⟩] kept) ∧
    ((crowded.create 3 6).2.total ≤ 10 ∨
      (crowded.create 3 6).2.windows = [(crowded.create 3 6).1]) := by
  have hkept := (wellKept_empty 12).run [.create 1 4, .create 2 0, .create 3 5, .create 4 3]
  have h : crowded.check = .ok () := check_eq_ok_iff.2 ⟨hkept.tight.toConsistent, hkept.total_eq⟩
  obtain ⟨-, -, hnewest, htotal⟩ := create_keeps_newest h 3 6
  exact ⟨h, hnewest, htotal⟩

end WindowTable

/-! ## The lowest place -/

namespace FreeRange

variable {r : FreeRange} {free rest : List FreeRange} {size offset : Nat}

/-- No range that is large enough begins before the bytes that are taken. -/
theorem offset_le_of_take? (h : Spaced free) (htake : take? size free = some (offset, rest))
    (hr : r ∈ free) (hfits : size ≤ r.size) : offset ≤ r.offset := by
  obtain ⟨before, first, behind, rfl, hbefore, -, rfl, -⟩ := exists_of_take? htake
  have hsorted := (List.pairwise_append.1 (pairwise_offset_of_spaced h)).2.1
  rcases List.mem_append.1 hr with hr | hr
  · exact absurd hfits (Nat.not_le.2 (hbefore r hr))
  · rcases List.mem_cons.1 hr with rfl | hr
    · exact Nat.le_refl _
    · exact Nat.le_of_lt (List.rel_of_pairwise_cons hsorted hr)

end FreeRange

/-- Indicates that no window reaches into the `size` bytes at `offset`. -/
def Window.Spares (ws : List Window) (size offset : Nat) : Prop :=
  ∀ w ∈ ws, ∀ b, offset ≤ b → b < offset + size → ¬ w.Holds b

namespace Layout

variable {l : Layout} {size offset : Nat}

/-- Bytes before the end of a tight layout into which no window reaches lie in one free range. -/
theorem Tight.exists_free (h : l.Tight) (hsize : 0 < size) (hspared : Window.Spares l.windows size offset)
    (hlt : offset < l.fileEnd) : ∃ r ∈ l.free, r.offset ≤ offset ∧ size ≤ r.size := by
  have huncovered : ∀ b, offset ≤ b → b < offset + size → ¬ Window.Covers l.windows b :=
    fun b hlo hhi ⟨w, hw, hb⟩ => hspared w hw b hlo hhi hb
  obtain ⟨r, hr, hlo, hhi⟩ :=
    h.covers_free_iff.2 ⟨hlt, huncovered offset (Nat.le_refl _) (Nat.lt_add_of_pos_right hsize)⟩
  refine ⟨r, hr, hlo, ?_⟩
  -- A window begins where the range ends, so that the bytes end there at the latest.
  have hbehind := (h.mem_free_iff.1 hr).behind
  have hstop : ¬ r.stop < offset + size := fun hend => huncovered r.stop (Nat.le_of_lt hhi) hend hbehind
  simp only [FreeRange.stop] at *
  omega

/-- In a tight layout room is found at the lowest place that there is. -/
theorem Tight.isLeast_allocate (h : l.Tight) (hsize : 0 < size) :
    IsLeast {offset | Window.Spares l.windows size offset} (l.allocate size).1 := by
  constructor
  · intro w hw b hlo hhi hb
    have hnew : (l.newWindow 0 size).Holds b := ⟨hlo, hhi⟩
    exact not_covers_newWindow 0 h.toConsistent hnew ⟨w, hw, hb⟩
  · intro offset hspared
    have hroom := h.exists_free hsize hspared
    rw [allocate, if_neg (Nat.ne_of_gt hsize)]
    split
    · rename_i taken free htake
      rcases Nat.lt_or_ge offset l.fileEnd with hlt | hend
      · obtain ⟨r, hr, hlo, hfits⟩ := hroom hlt
        exact Nat.le_trans (FreeRange.offset_le_of_take? h.spaced htake hr hfits) hlo
      · have htaken := FreeRange.covers_taken htake (Nat.le_refl _) (Nat.lt_add_of_pos_right hsize)
        exact Nat.le_trans (Nat.le_of_lt (h.free_lt _ htaken)) hend
    · rename_i hnone
      refine Nat.le_of_not_lt fun hlt => ?_
      obtain ⟨r, hr, -, hfits⟩ := hroom hlt
      exact absurd (FreeRange.take?_eq_none_iff.1 hnone r hr) (Nat.not_lt.2 hfits)

end Layout

namespace WindowTable

variable {t t' : WindowTable} {size : Nat}

/-- The window that a change makes or removes. -/
def windowOf (t : WindowTable) : Change → Option Window
  | .create page size => some (t.create page size).1
  | .remove page => t.find? page

/-- The windows that several changes make or remove, each with the table afterwards. -/
def trace (t : WindowTable) : List Change → List (Option Window × WindowTable)
  | [] => []
  | change :: changes => (t.windowOf change, t.apply change) :: trace (t.apply change) changes

/-- The windows that stay when one is made for a page are those of other pages. -/
theorem mem_windows_cleared_iff (h : t.WellKept) (page : PageId) (size : Nat) (w : Window) :
    w ∈ (t.cleared page size).windows ↔ w ∈ (t.create page size).2.windows ∧ w.page ≠ page := by
  have hnot := page_notMem_cleared h.tight.pages_nodup page size
  rw [windows_create h.tight.pages_nodup h.total_eq,
    ← windows_cleared h.tight.pages_nodup h.total_eq, List.mem_append, List.mem_singleton]
  constructor
  · exact fun hw => ⟨.inl hw, fun hpage => hnot (List.mem_map.2 ⟨w, hw, hpage⟩)⟩
  · rintro ⟨hw | rfl, hne⟩
    · exact hw
    · exact absurd rfl hne

/-- Well kept tables with the same windows and the same budget are the same. -/
theorem WellKept.ext (h : t.WellKept) (h' : t'.WellKept) (hbudget : t.budget = t'.budget)
    (hwindows : t.windows = t'.windows) : t = t' := by
  obtain ⟨hfree, hend⟩ := h.isCanonical.free_eq h'.isCanonical (hwindows ▸ List.Perm.refl _)
  have htotal : t.total = t'.total := by rw [h.total_eq, h'.total_eq, hwindows]
  cases t with
  | mk l total budget =>
    cases t' with
    | mk l' total' budget' =>
      cases l
      cases l'
      simp only at hbudget hwindows hfree hend htotal
      subst hbudget hwindows hfree hend htotal
      rfl

@[simp] theorem budget_run (t : WindowTable) (changes : List Change) :
    (t.run changes).budget = t.budget := by
  induction changes generalizing t with
  | nil => rfl
  | cons change changes ih =>
    refine (ih (t.apply change)).trans ?_
    cases change with
    | create page size =>
      show (t.create page size).2.budget = t.budget
      rw [create_eq, append_eq]
      exact budget_cleared t page size
    | remove page => exact budget_remove t page

/-- Whatever windows were made and removed since the file was empty, a new one that is not empty has the
least offset at which none of the windows that stay is in its way. If other changes led to the same
windows in the same order, all later changes do the same there and here. -/
theorem create_isLeast_run (budget : Nat) (changes : List Change) :
    let t := run { budget } changes
    (∀ page size, 0 < size → IsLeast {offset | Window.Spares
      ((t.create page size).2.windows.filter (·.page ≠ page)) size offset} (t.create page size).1.offset) ∧
    ∀ changes', (run { budget } changes').windows = t.windows →
      ∀ later, trace (run { budget } changes') later = trace t later := by
  intro t
  have h : t.WellKept := (wellKept_empty budget).run changes
  refine ⟨fun page size hsize => ?_, fun changes' hwindows later => ?_⟩
  · have hleast := (h.cleared page size).tight.isLeast_allocate hsize
    have hspares : ∀ offset, Window.Spares (t.cleared page size).windows size offset ↔
        Window.Spares ((t.create page size).2.windows.filter (·.page ≠ page)) size offset := by
      intro offset
      simp only [Window.Spares, mem_windows_cleared_iff h, List.mem_filter, decide_eq_true_eq]
    simp only [hspares] at hleast
    rw [create_eq, append_eq] at hleast ⊢
    exact hleast
  · have h' := (wellKept_empty budget).run changes'
    rw [h'.ext h (by rw [budget_run, budget_run]) hwindows]

/-- Pages 0 and 1 make way for page 3, which gets bytes of both of their windows. -/
theorem create_isLeast_run_of_joined :
    0 < 12 ∧ IsLeast {offset | Window.Spares [⟨2, 15, 20⟩] 12 offset} 0 ∧
    (run { budget := 40 } [.create 0 5, .create 7 1, .remove 7, .create 1 10, .create 2 20]).windows =
      (run { budget := 40 } [.create 0 5, .create 1 10, .create 2 20]).windows ∧
    trace (run { budget := 40 } [.create 0 5, .create 7 1, .remove 7, .create 1 10, .create 2 20])
        [.create 3 12, .remove 2] =
      trace (run { budget := 40 } [.create 0 5, .create 1 10, .create 2 20]) [.create 3 12, .remove 2] := by
  obtain ⟨hleast, hsame⟩ := create_isLeast_run 40 [.create 0 5, .create 1 10, .create 2 20]
  refine ⟨by decide, hleast 3 12 (by decide), by decide, ?_⟩
  exact hsame [.create 0 5, .create 7 1, .remove 7, .create 1 10, .create 2 20] (by decide) _

end WindowTable

end StatefulPages
