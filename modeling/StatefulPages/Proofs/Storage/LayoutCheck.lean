import Mathlib.Data.List.Chain
import StatefulPages.Proofs.Storage.Consistency
import StatefulPages.Storage.WindowTable

/-!
# The check of a window table

`WindowTable.error?_eq_none_iff`: the check finds nothing wrong if and only if the layout is consistent
and the total is the sum of the sizes of the windows. Its parts look at neighbours in lists only: at
free ranges in their order, and at all ranges sorted by where they start (`overlap?_eq_none_iff`).

`WindowTable.exists_ofLayout_iff`: so the layouts that are accepted are those that are `Acceptable`,
which is said of any two ranges, wherever they stand in their lists.
-/

namespace StatefulPages

namespace WindowTable

variable {t : WindowTable} {l : Layout} {ws : List Window} {free : List FreeRange}
  {rs : List (Nat × Nat)} {r : Nat × Nat}

/-! ## Windows and free ranges by themselves -/

theorem duplicate?_eq_none_iff : duplicate? ws = none ↔ (ws.map (·.page)).Nodup := by
  induction ws with
  | nil => simp [duplicate?]
  | cons w ws ih =>
    have hany : ws.any (·.page = w.page) = true ↔ w.page ∈ ws.map (·.page) := by
      simp only [List.any_eq_true, decide_eq_true_eq, List.mem_map]
    rw [duplicate?, List.map_cons, List.nodup_cons, ← ih, ← hany]
    split
    · rename_i hdup
      simp [hdup]
    · rename_i hdup
      simp [hdup]

/-- Free ranges with gaps between neighbours have gaps between all. -/
theorem spaced_iff : FreeRange.Spaced free ↔
    adjacent? free = none ∧ free.find? (·.size = 0) = none := by
  rw [List.find?_eq_none]
  simp only [decide_eq_true_eq]
  induction free with
  | nil => simp [FreeRange.Spaced, adjacent?]
  | cons r rest ih =>
    rw [FreeRange.Spaced, ih, List.forall_mem_cons]
    cases rest with
    | nil => simp [adjacent?, Nat.pos_iff_ne_zero]
    | cons next rest =>
      rw [adjacent?]
      constructor
      · intro h
        obtain ⟨hpos, hgap, hrest, hsizes⟩ := h
        have := hgap next (by simp)
        rw [if_neg (by omega)]
        exact ⟨hrest, Nat.ne_of_gt hpos, hsizes⟩
      · intro h
        obtain ⟨hrest, hpos, hsizes⟩ := h
        split at hrest
        · cases hrest
        · rename_i hgap
          obtain ⟨-, hbehind, -⟩ := ih.2 ⟨hrest, hsizes⟩
          refine ⟨Nat.pos_of_ne_zero hpos, fun x hx => ?_, hrest, hsizes⟩
          rcases List.mem_cons.1 hx with hx | hx
          · rw [hx]
            omega
          · have := hbehind x hx
            simp only [FreeRange.stop] at *
            omega

/-! ## All ranges together -/

/-- Indicates ranges that share no byte. -/
def RangesApart (a b : Nat × Nat) : Prop :=
  a.2 ≤ b.1 ∨ b.2 ≤ a.1

/-- Where neighbours do not overlap, each range stops before all later ones start. -/
theorem overlap?_eq_none_iff (h : ∀ a ∈ rs, a.1 ≤ a.2) :
    overlap? rs = none ↔ rs.Pairwise (·.2 ≤ ·.1) := by
  induction rs with
  | nil => simp [overlap?]
  | cons a rs ih =>
    have ih := ih fun b hb => h b (List.mem_cons_of_mem a hb)
    rw [List.pairwise_cons, ← ih]
    cases rs with
    | nil => simp [overlap?]
    | cons b rs =>
      rw [overlap?]
      constructor
      · intro hnone
        split at hnone
        · cases hnone
        · rename_i hab
          refine ⟨fun c hc => ?_, hnone⟩
          rcases List.mem_cons.1 hc with hc | hc
          · rw [hc]
            omega
          · have hbc := (List.pairwise_cons.1 (ih.1 hnone)).1 c hc
            have hb := h b (by simp)
            omega
      · intro h
        obtain ⟨hbehind, hnone⟩ := h
        have := hbehind b (by simp)
        rw [if_neg (by omega)]
        exact hnone

theorem pairwise_sortedRanges (l : Layout) : (sortedRanges l).Pairwise (·.1 ≤ ·.1) := by
  have hsorted : (sortedRanges l).Pairwise
      fun a b => (a.1 < b.1 || (a.1 == b.1 && a.2 ≤ b.2)) = true :=
    List.pairwise_mergeSort (by simp; omega) (by simp; omega) (ranges l)
  refine hsorted.imp fun {a b} hab => ?_
  simp at hab
  omega

theorem mem_ranges : r ∈ ranges l ↔
    (∃ w ∈ l.windows, w.size ≠ 0 ∧ (w.offset, w.stop) = r) ∨ ∃ f ∈ l.free, (f.offset, f.stop) = r := by
  simp [ranges, and_assoc]

theorem mem_sortedRanges : r ∈ sortedRanges l ↔ r ∈ ranges l := by
  rw [sortedRanges, List.mem_mergeSort]

/-- Ranges that are not empty do not overlap when sorted if no two share a byte. -/
theorem overlap?_sortedRanges (h : ∀ r ∈ ranges l, r.1 < r.2) :
    overlap? (sortedRanges l) = none ↔ (ranges l).Pairwise RangesApart := by
  have hperm : (sortedRanges l).Perm (ranges l) := List.mergeSort_perm ..
  have h' : ∀ r ∈ sortedRanges l, r.1 < r.2 := fun r hr => h r (mem_sortedRanges.1 hr)
  rw [overlap?_eq_none_iff fun r hr => Nat.le_of_lt (h' r hr),
    ← hperm.pairwise_iff (R := RangesApart) Or.symm]
  constructor
  · exact fun hbehind => hbehind.imp .inl
  · intro hapart
    refine (hapart.and (pairwise_sortedRanges l)).imp_of_mem fun {a b} ha hb hab => ?_
    have := h' b hb
    rcases hab.1 with hab' | hab'
    · exact hab'
    · have := hab.2
      omega

/-- The last of ranges behind each other stops last. -/
theorem stop_le_iff (h : rs.Pairwise (·.2 ≤ ·.1)) (hle : ∀ a ∈ rs, a.1 ≤ a.2) (n : Nat) :
    (∀ last, rs.getLast? = some last → last.2 ≤ n) ↔ ∀ a ∈ rs, a.2 ≤ n := by
  constructor
  · intro hlast a ha
    obtain ⟨last, hl⟩ : ∃ last, rs.getLast? = some last := by
      cases hl : rs.getLast? with
      | none => rw [List.getLast?_eq_none_iff.1 hl] at ha; cases ha
      | some last => exact ⟨last, rfl⟩
    obtain ⟨before, hbefore⟩ := List.getLast?_eq_some_iff.1 hl
    have hn := hlast last hl
    rw [hbefore] at ha h
    rcases List.mem_append.1 ha with ha | ha
    · have hal := (List.pairwise_append.1 h).2.2 a ha last (by simp)
      have := hle last (by rw [hbefore]; simp)
      omega
    · rw [List.mem_singleton.1 ha]
      exact hn
  · intro hall last hl
    exact hall last (List.mem_of_getLast? hl)

/-! ## The whole check -/

/-- Ranges that are not empty are apart if no byte lies in both. -/
theorem rangesApart_iff {a b : Nat × Nat} (ha : a.1 < a.2) (hb : b.1 < b.2) :
    RangesApart a b ↔ ∀ x, a.1 ≤ x ∧ x < a.2 → ¬ (b.1 ≤ x ∧ x < b.2) := by
  rw [RangesApart]
  constructor
  · intro hab x hxa hxb
    omega
  · intro hapart
    have := hapart (max a.1 b.1)
    omega

theorem apart_iff {w v : Window} : w.Apart v ↔
    (w.size ≠ 0 → v.size ≠ 0 → RangesApart (w.offset, w.stop) (v.offset, v.stop)) := by
  constructor
  · intro hapart hw hv
    have hws : w.offset < w.stop := Nat.lt_add_of_pos_right (Nat.pos_of_ne_zero hw)
    have hvs : v.offset < v.stop := Nat.lt_add_of_pos_right (Nat.pos_of_ne_zero hv)
    exact (rangesApart_iff hws hvs).2 hapart
  · intro hapart b hw hv
    have hws := Window.size_pos_of_holds hw
    have hvs := Window.size_pos_of_holds hv
    rcases hapart (Nat.ne_of_gt hws) (Nat.ne_of_gt hvs) with hle | hle
    · exact absurd (Nat.lt_of_lt_of_le hw.2 hle) (Nat.not_lt.2 hv.1)
    · exact absurd (Nat.lt_of_lt_of_le hv.2 hle) (Nat.not_lt.2 hw.1)

theorem pairwise_free (h : FreeRange.Spaced free) :
    (free.map fun r => (r.offset, r.stop)).Pairwise RangesApart :=
  List.pairwise_map.2 ((FreeRange.pairwise_stop_of_spaced h).imp fun hgap => .inl (Nat.le_of_lt hgap))

/-- The ranges share no byte if the windows are apart from each other and from the free ranges. -/
theorem pairwise_ranges_iff (hspaced : FreeRange.Spaced l.free) :
    (ranges l).Pairwise RangesApart ↔ l.windows.Pairwise Window.Apart ∧
      ∀ b, Window.Covers l.windows b → ¬ FreeRange.Covers l.free b := by
  have hwindows : ((l.windows.filter (·.size ≠ 0)).map fun w => (w.offset, w.stop)).Pairwise
      RangesApart ↔ l.windows.Pairwise Window.Apart := by
    rw [List.pairwise_map, List.pairwise_filter]
    refine List.Pairwise.iff fun {w v} => ?_
    rw [apart_iff]
    simp
  rw [ranges, List.pairwise_append, hwindows]
  constructor
  · intro ⟨hapart, _, hcross⟩
    refine ⟨hapart, fun b hwindow hfree => ?_⟩
    obtain ⟨w, hw, hwb⟩ := hwindow
    obtain ⟨r, hr, hrb⟩ := hfree
    have hsize := Nat.ne_of_gt (Window.size_pos_of_holds hwb)
    have hab := hcross (w.offset, w.stop) (List.mem_map.2 ⟨w, by simp [hw, hsize], rfl⟩)
      (r.offset, r.stop) (List.mem_map.2 ⟨r, hr, rfl⟩)
    rcases hab with hle | hle
    · exact absurd (Nat.lt_of_lt_of_le hwb.2 hle) (Nat.not_lt.2 hrb.1)
    · exact absurd (Nat.lt_of_lt_of_le hrb.2 hle) (Nat.not_lt.2 hwb.1)
  · intro ⟨hapart, hnot⟩
    refine ⟨hapart, pairwise_free hspaced, fun a ha b hb => ?_⟩
    obtain ⟨w, hw, rfl⟩ := List.mem_map.1 ha
    obtain ⟨r, hr, rfl⟩ := List.mem_map.1 hb
    obtain ⟨hw, hsize⟩ := List.mem_filter.1 hw
    have hws : w.offset < w.stop := Nat.lt_add_of_pos_right (Nat.pos_of_ne_zero (by simpa using hsize))
    have hrs : r.offset < r.stop :=
      Nat.lt_add_of_pos_right (FreeRange.size_pos_of_spaced hspaced hr)
    exact (rangesApart_iff hws hrs).2 fun x hwx hrx => hnot x ⟨w, hw, hwx⟩ ⟨r, hr, hrx⟩

theorem lt_of_mem_ranges (hspaced : FreeRange.Spaced l.free) (hr : r ∈ ranges l) : r.1 < r.2 := by
  rcases mem_ranges.1 hr with ⟨w, hw, hsize, heq⟩ | ⟨f, hf, heq⟩
  · rw [← heq]
    exact Nat.lt_add_of_pos_right (Nat.pos_of_ne_zero hsize)
  · rw [← heq]
    exact Nat.lt_add_of_pos_right (FreeRange.size_pos_of_spaced hspaced hf)

/-- The ranges stop within the file if their bytes lie there. -/
theorem stop_ranges_le_iff (hspaced : FreeRange.Spaced l.free) (n : Nat) :
    (∀ r ∈ ranges l, r.2 ≤ n) ↔ (∀ b, Window.Covers l.windows b → b < n) ∧
      ∀ b, FreeRange.Covers l.free b → b < n := by
  constructor
  · intro hstop
    refine ⟨fun b ⟨w, hw, hb⟩ => ?_, fun b ⟨r, hr, hb⟩ => ?_⟩
    · have hsize := Nat.ne_of_gt (Window.size_pos_of_holds hb)
      exact Nat.lt_of_lt_of_le hb.2 (hstop _ (mem_ranges.2 (.inl ⟨w, hw, hsize, rfl⟩)))
    · exact Nat.lt_of_lt_of_le hb.2 (hstop _ (mem_ranges.2 (.inr ⟨r, hr, rfl⟩)))
  · intro ⟨hwindows, hfree⟩ r hr
    have hlt := lt_of_mem_ranges hspaced hr
    have hlast : r.1 ≤ r.2 - 1 ∧ r.2 - 1 < r.2 := by omega
    have hn : r.2 - 1 < n := by
      rcases mem_ranges.1 hr with ⟨w, hw, -, heq⟩ | ⟨f, hf, heq⟩
      · rw [← heq] at hlast ⊢
        exact hwindows _ ⟨w, hw, hlast⟩
      · rw [← heq] at hlast ⊢
        exact hfree _ ⟨f, hf, hlast⟩
    omega

/-- The check finds nothing wrong if each of its parts does so. -/
theorem error?_eq_none_iff_parts : t.error? = none ↔ duplicate? t.windows = none ∧
    t.total = t.totalSize ∧ (adjacent? t.free = none ∧ t.free.find? (·.size = 0) = none) ∧
    overlap? (sortedRanges t.toLayout) = none ∧
    ∀ last, (sortedRanges t.toLayout).getLast? = some last → last.2 ≤ t.fileEnd := by
  rw [error?]
  cases duplicate? t.windows with
  | some page => simp
  | none =>
    by_cases htotal : t.totalSize = t.total
    · dsimp only
      rw [if_neg (not_not_intro htotal)]
      cases adjacent? t.free with
      | some pair => simp
      | none =>
        cases t.free.find? (·.size = 0) with
        | some r => simp
        | none =>
          cases overlap? (sortedRanges t.toLayout) with
          | some pair => simp
          | none =>
            cases (sortedRanges t.toLayout).getLast? with
            | none => simp [htotal]
            | some last => simp [htotal]
    · simp [htotal, Ne.symm htotal]

/-- The check finds nothing wrong with consistent layouts, and with no others. -/
theorem error?_eq_none_iff : t.error? = none ↔ t.Consistent ∧ t.total = t.totalSize := by
  rw [error?_eq_none_iff_parts, duplicate?_eq_none_iff, ← spaced_iff]
  -- The order of the ranges, and what of them lies last, matter only where free ranges are spaced.
  have hparts : FreeRange.Spaced t.free →
      (overlap? (sortedRanges t.toLayout) = none ∧
        (∀ last, (sortedRanges t.toLayout).getLast? = some last → last.2 ≤ t.fileEnd) ↔
      (t.windows.Pairwise Window.Apart ∧
        ∀ b, Window.Covers t.windows b → ¬ FreeRange.Covers t.free b) ∧
      (∀ b, Window.Covers t.windows b → b < t.fileEnd) ∧
        ∀ b, FreeRange.Covers t.free b → b < t.fileEnd) := by
    intro hspaced
    have hlt := fun r (hr : r ∈ ranges t.toLayout) => lt_of_mem_ranges hspaced hr
    have hle : ∀ r ∈ sortedRanges t.toLayout, r.1 ≤ r.2 := fun r hr =>
      Nat.le_of_lt (hlt r (mem_sortedRanges.1 hr))
    rw [← pairwise_ranges_iff hspaced, ← stop_ranges_le_iff hspaced, ← overlap?_sortedRanges hlt]
    refine and_congr_right fun hoverlap => ?_
    rw [stop_le_iff ((overlap?_eq_none_iff hle).1 hoverlap) hle]
    simp only [mem_sortedRanges]
  constructor
  · intro ⟨hpages, htotal, hspaced, hrest⟩
    obtain ⟨⟨hapart, hnot⟩, hwindows, hfree⟩ := (hparts hspaced).1 hrest
    exact ⟨⟨hpages, hapart, hspaced, hnot, hwindows, hfree⟩, htotal⟩
  · intro ⟨h, htotal⟩
    exact ⟨h.pages_nodup, htotal, h.spaced,
      (hparts h.spaced).2 ⟨⟨h.windows_apart, h.not_free⟩, h.window_lt, h.free_lt⟩⟩

theorem check_eq_ok_iff : t.check = .ok () ↔ t.Consistent ∧ t.total = t.totalSize := by
  rw [← error?_eq_none_iff, check]
  cases t.error? <;> simp

/-! ## Layouts that are accepted -/

/-- Consistent layouts are accepted. -/
theorem ofLayout_of_consistent (h : l.Consistent) (budget : Nat) :
    ofLayout l budget = .ok { toLayout := l, total := l.totalSize, budget } := by
  have hnone := error?_eq_none_iff.2 (⟨h, rfl⟩ :
    (⟨l, l.totalSize, budget⟩ : WindowTable).Consistent ∧ l.totalSize = l.totalSize)
  rw [ofLayout, hnone]

/-- Layouts that are accepted are consistent, and their tables have what they have. -/
theorem consistent_of_ofLayout {budget : Nat} (h : ofLayout l budget = .ok t) :
    l.Consistent ∧ t = { toLayout := l, total := l.totalSize, budget } := by
  rw [ofLayout] at h
  split at h
  · cases h
  · rename_i hnone
    cases h
    exact ⟨(error?_eq_none_iff.1 hnone).1, rfl⟩

/-- Free ranges are spaced if none is empty and each ends before the next one in the list begins. -/
theorem spaced_iff_isChain : FreeRange.Spaced free ↔
    (∀ r ∈ free, r.size ≠ 0) ∧ free.IsChain fun r next => r.stop < next.offset := by
  induction free with
  | nil => simp [FreeRange.Spaced]
  | cons r rest ih =>
    rw [FreeRange.Spaced, ih, List.forall_mem_cons]
    constructor
    · rintro ⟨hpos, hbehind, hsizes, hchain⟩
      refine ⟨⟨Nat.ne_of_gt hpos, hsizes⟩, ?_⟩
      cases rest with
      | nil => exact List.isChain_singleton r
      | cons next rest => exact List.isChain_cons_cons.2 ⟨hbehind next (by simp), hchain⟩
    · rintro ⟨⟨hsize, hsizes⟩, hchain⟩
      cases rest with
      | nil => exact ⟨Nat.pos_of_ne_zero hsize, by simp, hsizes, .nil⟩
      | cons next rest =>
        obtain ⟨hgap, hchain⟩ := List.isChain_cons_cons.1 hchain
        obtain ⟨-, hbehind, -⟩ := ih.2 ⟨hsizes, hchain⟩
        refine ⟨Nat.pos_of_ne_zero hsize, fun x hx => ?_, hsizes, hchain⟩
        rcases List.mem_cons.1 hx with rfl | hx
        · exact hgap
        · have := hbehind x hx
          simp only [FreeRange.stop] at *
          omega

end WindowTable

/-- Indicates that no byte lies in both ranges. -/
def FreeRange.Apart (r s : FreeRange) : Prop :=
  ∀ b, r.Holds b → ¬ s.Holds b

/-- Indicates a layout in which no page has two windows, no free range is empty, each free range ends
before the next one in the list begins, and the windows that are not empty and the free ranges share no
byte with each other and end within the file. -/
structure Layout.Acceptable (l : Layout) : Prop where
  pages_nodup : (l.windows.map (·.page)).Nodup
  free_nonempty : ∀ r ∈ l.free, r.size ≠ 0
  free_isChain : l.free.IsChain fun r next => r.stop < next.offset
  windows_apart : (l.windows.filter (·.size ≠ 0)).Pairwise Window.Apart
  free_apart : l.free.Pairwise FreeRange.Apart
  window_free_apart : ∀ w ∈ l.windows, w.size ≠ 0 → ∀ r ∈ l.free, ∀ b, w.Holds b → ¬ r.Holds b
  window_stop_le : ∀ w ∈ l.windows, w.size ≠ 0 → w.stop ≤ l.fileEnd
  free_stop_le : ∀ r ∈ l.free, r.stop ≤ l.fileEnd

namespace Layout

variable {l : Layout}

/-- What holds a byte ends within the file if its last byte lies there. -/
theorem Consistent.acceptable (h : l.Consistent) : l.Acceptable where
  pages_nodup := h.pages_nodup
  free_nonempty := (WindowTable.spaced_iff_isChain.1 h.spaced).1
  free_isChain := (WindowTable.spaced_iff_isChain.1 h.spaced).2
  windows_apart := h.windows_apart.filter _
  free_apart := (FreeRange.pairwise_stop_of_spaced h.spaced).imp fun {r s} hgap b hr hs =>
    absurd (Nat.lt_trans hr.2 hgap) (Nat.not_lt.2 hs.1)
  window_free_apart := fun w hw _ r hr b hwb hrb => h.not_free b ⟨w, hw, hwb⟩ ⟨r, hr, hrb⟩
  window_stop_le := fun w hw hsize => by
    have hlast := h.window_lt (w.stop - 1) ⟨w, hw, by simp only [Window.Holds, Window.stop]; omega⟩
    simp only [Window.stop] at *
    omega
  free_stop_le := fun r hr => by
    have hpos := FreeRange.size_pos_of_spaced h.spaced hr
    have hlast := h.free_lt (r.stop - 1)
      ⟨r, hr, by simp only [FreeRange.Holds, FreeRange.stop]; omega⟩
    simp only [FreeRange.stop] at *
    omega

theorem Acceptable.consistent (h : l.Acceptable) : l.Consistent where
  pages_nodup := h.pages_nodup
  windows_apart := by
    -- A window that holds a byte is not empty, so that it is among those that are apart.
    refine (List.pairwise_filter.1 h.windows_apart).imp fun {w v} hapart b hw hv => ?_
    have hwsize := Nat.ne_of_gt (Window.size_pos_of_holds hw)
    have hvsize := Nat.ne_of_gt (Window.size_pos_of_holds hv)
    exact hapart (by simpa using hwsize) (by simpa using hvsize) b hw hv
  spaced := WindowTable.spaced_iff_isChain.2 ⟨h.free_nonempty, h.free_isChain⟩
  not_free := fun b ⟨w, hw, hwb⟩ ⟨r, hr, hrb⟩ =>
    h.window_free_apart w hw (Nat.ne_of_gt (Window.size_pos_of_holds hwb)) r hr b hwb hrb
  window_lt := fun _ ⟨w, hw, hb⟩ =>
    Nat.lt_of_lt_of_le hb.2 (h.window_stop_le w hw (Nat.ne_of_gt (Window.size_pos_of_holds hb)))
  free_lt := fun _ ⟨r, hr, hb⟩ => Nat.lt_of_lt_of_le hb.2 (h.free_stop_le r hr)

end Layout

namespace WindowTable

/-- A layout is accepted, whatever the budget, if and only if it is acceptable. -/
theorem exists_ofLayout_iff (l : Layout) (budget : Nat) :
    (∃ t, ofLayout l budget = .ok t) ↔ l.Acceptable := by
  constructor
  · rintro ⟨t, ht⟩
    exact (consistent_of_ofLayout ht).1.acceptable
  · intro h
    exact ⟨_, ofLayout_of_consistent h.consistent budget⟩

end WindowTable

end StatefulPages
