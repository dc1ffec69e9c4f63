import StatefulPages.Proofs.Storage.CanonicalLayout
import StatefulPages.Proofs.Storage.LayoutCheck

/-!
# Tables of layouts that were accepted

A layout that is accepted need not be one that a table ever has: bytes may have leaked, a free range may
lie at the end of the file, and empty windows may lie anywhere. Its table stays consistent all the same,
and what has leaked stays as it is.

* `Continues`: what a table keeps of the layout that it was made of;
* `Continues.discard`, `Continues.append`: giving up a window and making one keep it;
* `check_run_of_ofLayout`: so does whatever is made and removed.
-/

namespace StatefulPages.WindowTable

variable {l : Layout} {t : WindowTable} {w : Window} {rest : List Window} {page : PageId}

/-- Indicates a consistent table in which the same bytes have leaked as in a layout. -/
structure Continues (l : Layout) (t : WindowTable) : Prop where
  consistent : t.Consistent
  total_eq : t.total = t.totalSize
  leaked_iff : ∀ b, t.Leaked b ↔ l.Leaked b

theorem Continues.discard (h : Continues l t) (hp : t.windows.Perm (w :: rest)) :
    Continues l (t.discard w rest) where
  consistent := h.consistent.without hp
  total_eq := total_discard h.total_eq hp
  leaked_iff := fun b => (Layout.leaked_without h.consistent hp).trans (h.leaked_iff b)

theorem Continues.append (h : Continues l t) (hpage : page ∉ t.windows.map (·.page)) (size : Nat) :
    Continues l (t.append page size).2 where
  consistent := by
    rw [append_eq]
    exact h.consistent.withNew hpage size
  total_eq := total_append h.total_eq page size
  leaked_iff := fun b => by
    rw [append_eq]
    exact (Layout.leaked_withNew h.consistent).trans (h.leaked_iff b)

theorem invariant_continues (l : Layout) : Invariant (Continues l) where
  pages_nodup := fun h => h.consistent.pages_nodup
  discard := fun _ _ _ hp h => h.discard hp
  append := fun _ _ hpage h size => h.append hpage size

/-- A layout is accepted only if it is consistent. -/
theorem continues_of_ofLayout {budget : Nat} (h : ofLayout l budget = .ok t) : Continues l t := by
  obtain ⟨hconsistent, rfl⟩ := consistent_of_ofLayout h
  exact ⟨hconsistent, rfl, fun _ => Iff.rfl⟩

/-- Whatever layout was accepted, its table passes the check after all that is made and removed, and the
bytes before the end of the file that nothing holds are always the same. -/
theorem check_run_of_ofLayout {budget : Nat} (h : ofLayout l budget = .ok t) (changes : List Change) :
    (t.run changes).check = .ok () ∧ ∀ b, (t.run changes).Leaked b ↔ l.Leaked b := by
  have hrun := (invariant_continues l).run (continues_of_ofLayout h) changes
  exact ⟨check_eq_ok_iff.2 ⟨hrun.consistent, hrun.total_eq⟩, hrun.leaked_iff⟩

/-- A layout that no table has whose file was empty at first: bytes have leaked in front of the window
and behind it, a free range lies at the end of the file, and an empty window in the middle of another. -/
def oddLayout : Layout where
  windows := [⟨1, 2, 3⟩, ⟨2, 4, 0⟩]
  free := [⟨7, 3⟩]
  fileEnd := 10

theorem covers_windows_oddLayout (b : Nat) :
    Window.Covers oddLayout.windows b ↔ 2 ≤ b ∧ b < 5 := by
  simp only [oddLayout, Window.Covers, Window.Holds, Window.stop, List.mem_cons, List.not_mem_nil,
    or_false, exists_eq_or_imp, exists_eq_left]
  omega

theorem covers_free_oddLayout (b : Nat) : FreeRange.Covers oddLayout.free b ↔ 7 ≤ b ∧ b < 10 := by
  simp only [oddLayout, FreeRange.Covers, FreeRange.Holds, FreeRange.stop, List.mem_singleton,
    exists_eq_left]

theorem consistent_oddLayout : oddLayout.Consistent where
  pages_nodup := by decide
  windows_apart := by
    simp only [oddLayout, List.pairwise_pair, Window.Apart, Window.Holds, Window.stop]
    omega
  spaced := by simp [oddLayout, FreeRange.Spaced]
  not_free := fun b hwindow hfree => by
    rw [covers_windows_oddLayout] at hwindow
    rw [covers_free_oddLayout] at hfree
    omega
  window_lt := fun b hwindow =>
    Nat.lt_trans ((covers_windows_oddLayout b).1 hwindow).2 (by decide)
  free_lt := fun b hfree => ((covers_free_oddLayout b).1 hfree).2

theorem leaked_oddLayout_iff (b : Nat) : oddLayout.Leaked b ↔ b < 2 ∨ (5 ≤ b ∧ b < 7) := by
  rw [Layout.Leaked, covers_windows_oddLayout, covers_free_oddLayout]
  show b < 10 ∧ _ ↔ _
  omega

/-- Page 3 takes free bytes, and page 1 is given up for page 4, which is appended. When both are removed,
the file ends with bytes that have leaked. -/
theorem check_run_of_ofLayout_of_odd :
    ofLayout oddLayout 6 = .ok { toLayout := oddLayout, total := 3, budget := 6 } ∧
    (run { toLayout := oddLayout, total := 3, budget := 6 }
      [.create 3 2, .create 4 4, .remove 4, .remove 3]).check = .ok () ∧
    ∀ b, (run { toLayout := oddLayout, total := 3, budget := 6 }
      [.create 3 2, .create 4 4, .remove 4, .remove 3]).Leaked b ↔ b < 2 ∨ (5 ≤ b ∧ b < 7) := by
  have haccepted : ofLayout oddLayout 6 = .ok { toLayout := oddLayout, total := 3, budget := 6 } :=
    ofLayout_of_consistent consistent_oddLayout 6
  obtain ⟨hcheck, hleaked⟩ :=
    check_run_of_ofLayout haccepted [.create 3 2, .create 4 4, .remove 4, .remove 3]
  exact ⟨haccepted, hcheck, fun b => (hleaked b).trans (leaked_oddLayout_iff b)⟩

end StatefulPages.WindowTable
