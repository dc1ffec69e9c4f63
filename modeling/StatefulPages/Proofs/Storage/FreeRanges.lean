import StatefulPages.Storage.Layout

/-!
# Lists of free ranges

The free ranges of a data file are kept `Spaced`: none is empty, and each ends before the next one
begins. What the operations on such lists do is stated byte by byte (`Covers`) and in total
(`sizeSum`):

* `spaced_insert`, `covers_insert`: a range that is put in is joined with those it touches;
* `spaced_of_take?`, `covers_of_take?`: bytes are taken from a range that holds them all;
* `mem_iff_of_spaced`: the ranges are the maximal runs of the bytes that they cover.
-/

namespace StatefulPages.FreeRange

/-- Indicates that a byte of the file lies in a range. -/
def Holds (r : FreeRange) (b : Nat) : Prop :=
  r.offset ≤ b ∧ b < r.stop

/-- Indicates that a byte of the file lies in one of the ranges. -/
def Covers (free : List FreeRange) (b : Nat) : Prop :=
  ∃ r ∈ free, r.Holds b

/-- Indicates that no range is empty, and that each ends before the next one begins. -/
def Spaced : List FreeRange → Prop
  | [] => True
  | r :: rest => 0 < r.size ∧ (∀ next ∈ rest, r.stop < next.offset) ∧ Spaced rest

/-- The sum of the sizes of free ranges. -/
def sizeSum : List FreeRange → Nat
  | [] => 0
  | r :: rest => r.size + sizeSum rest

variable {f r : FreeRange} {free rest : List FreeRange} {b lo size offset : Nat}

@[simp] theorem not_covers_nil : ¬ Covers [] b := by
  simp [Covers]

theorem covers_cons : Covers (r :: rest) b ↔ r.Holds b ∨ Covers rest b := by
  simp [Covers]

theorem size_pos_of_spaced (h : Spaced free) (hr : r ∈ free) : 0 < r.size := by
  induction free with
  | nil => simp at hr
  | cons s rest ih =>
    obtain ⟨hs, -, hrest⟩ := h
    rcases List.mem_cons.1 hr with rfl | hr
    · exact hs
    · exact ih hrest hr

/-! ## Putting a range in -/

/-- What is attached to a list of ranges behind it begins it. -/
theorem offset_attach (hr : ∀ next ∈ rest, r.stop ≤ next.offset) :
    ∀ x ∈ attach r rest, r.offset ≤ x.offset := by
  cases rest with
  | nil => simp [attach]
  | cons next rest =>
    intro x hx
    have hstop : r.offset ≤ r.stop := Nat.le_add_right ..
    rw [attach] at hx
    split at hx
    · rcases List.mem_cons.1 hx with rfl | hx
      · exact Nat.le_refl _
      · exact Nat.le_trans hstop (hr x (by simp [hx]))
    · rcases List.mem_cons.1 hx with rfl | hx
      · exact Nat.le_refl _
      · exact Nat.le_trans hstop (hr x hx)

theorem spaced_attach (hpos : 0 < r.size) (hr : ∀ next ∈ rest, r.stop ≤ next.offset)
    (h : Spaced rest) : Spaced (attach r rest) := by
  cases rest with
  | nil => exact ⟨hpos, by simp, trivial⟩
  | cons next rest =>
    obtain ⟨hnext, hbehind, hrest⟩ := h
    rw [attach]
    split
    · rename_i htouch
      refine ⟨Nat.lt_of_lt_of_le hpos (Nat.le_add_right ..), fun x hx => ?_, hrest⟩
      have := hbehind x hx
      simp only [stop] at *
      omega
    · rename_i htouch
      have hne := Nat.lt_of_le_of_ne (hr next (by simp)) htouch
      refine ⟨hpos, fun x hx => ?_, hnext, hbehind, hrest⟩
      rcases List.mem_cons.1 hx with rfl | hx
      · exact hne
      · have := hbehind x hx
        simp only [stop] at *
        omega

theorem covers_attach : Covers (attach r rest) b ↔ r.Holds b ∨ Covers rest b := by
  cases rest with
  | nil => rw [attach, covers_cons]
  | cons next rest =>
    rw [attach]
    split
    · rename_i htouch
      simp only [covers_cons, Holds, stop] at *
      constructor
      · rintro (h | h)
        · omega
        · exact .inr (.inr h)
      · rintro (h | h | h)
        · omega
        · omega
        · exact .inr h
    · rw [covers_cons]

theorem sizeSum_attach : sizeSum (attach r rest) = r.size + sizeSum rest := by
  cases rest with
  | nil => rfl
  | cons next rest =>
    rw [attach]
    split
    · simp only [sizeSum]
      omega
    · rfl

/-- A range that is put in begins no earlier than what is there. -/
theorem offset_insert (hpos : 0 < f.size) (h : Spaced free)
    (hf : ∀ r ∈ free, r.stop ≤ f.offset ∨ f.stop ≤ r.offset) (hlo : lo ≤ f.offset)
    (hfree : ∀ r ∈ free, lo ≤ r.offset) : ∀ x ∈ insert f free, lo ≤ x.offset := by
  induction free generalizing lo with
  | nil => simpa [insert] using hlo
  | cons r rest ih =>
    obtain ⟨hr, hbehind, hrest⟩ := h
    intro x hx
    rw [insert] at hx
    split at hx
    · rename_i hlt
      have hrf : r.stop ≤ f.offset := by
        rcases hf r (by simp) with h | h
        · exact h
        · simp only [stop] at *
          omega
      have hmem : ∀ y ∈ insert f rest, r.stop ≤ y.offset :=
        ih hrest (fun y hy => hf y (by simp [hy])) hrf fun y hy => Nat.le_of_lt (hbehind y hy)
      exact Nat.le_trans (hfree r (by simp)) (offset_attach hmem x hx)
    · rename_i hle
      have hfr : f.stop ≤ r.offset := by
        rcases hf r (by simp) with h | h
        · simp only [stop] at *
          omega
        · exact h
      have hmem : ∀ y ∈ r :: rest, f.stop ≤ y.offset := by
        intro y hy
        rcases List.mem_cons.1 hy with rfl | hy
        · exact hfr
        · have := hbehind y hy
          simp only [stop] at *
          omega
      exact Nat.le_trans hlo (offset_attach hmem x hx)

/-- A range that holds none of the bytes there are keeps a list spaced. -/
theorem spaced_insert (hpos : 0 < f.size) (h : Spaced free)
    (hf : ∀ r ∈ free, r.stop ≤ f.offset ∨ f.stop ≤ r.offset) : Spaced (insert f free) := by
  induction free with
  | nil => exact ⟨hpos, by simp, trivial⟩
  | cons r rest ih =>
    obtain ⟨hr, hbehind, hrest⟩ := h
    have hf' : ∀ y ∈ rest, y.stop ≤ f.offset ∨ f.stop ≤ y.offset := fun y hy => hf y (by simp [hy])
    have hrf := hf r (by simp)
    rw [insert]
    split
    · rename_i hlt
      refine spaced_attach hr ?_ (ih hrest hf')
      refine offset_insert hpos hrest hf' ?_ fun y hy => Nat.le_of_lt (hbehind y hy)
      simp only [stop] at *
      omega
    · rename_i hle
      refine spaced_attach hpos ?_ ⟨hr, hbehind, hrest⟩
      intro y hy
      rcases List.mem_cons.1 hy with rfl | hy
      · simp only [stop] at *
        omega
      · have := hbehind y hy
        simp only [stop] at *
        omega

theorem covers_insert : Covers (insert f free) b ↔ f.Holds b ∨ Covers free b := by
  induction free with
  | nil => rw [insert, covers_cons]
  | cons r rest ih =>
    rw [insert]
    split
    · rw [covers_attach, ih, covers_cons]
      exact or_left_comm
    · rw [covers_attach]

theorem sizeSum_insert : sizeSum (insert f free) = f.size + sizeSum free := by
  induction free with
  | nil => rfl
  | cons r rest ih =>
    rw [insert]
    split
    · rw [sizeSum_attach, ih, sizeSum]
      omega
    · rw [sizeSum_attach]

/-! ## Taking bytes -/

/-- No range is large enough exactly if nothing is taken. -/
theorem take?_eq_none_iff : take? size free = none ↔ ∀ r ∈ free, r.size < size := by
  induction free with
  | nil => simp [take?]
  | cons r rest ih =>
    rw [take?]
    split
    · rename_i hfits
      split <;> simp [Nat.not_lt.2 hfits]
    · rename_i hsmall
      simp [ih, Nat.not_le.1 hsmall]

/-- The bytes that are taken begin the first range that is large enough; of this range the rest is
left. -/
theorem exists_of_take? (h : take? size free = some (offset, rest)) :
    ∃ before r behind, free = before ++ r :: behind ∧ (∀ s ∈ before, s.size < size) ∧
      size ≤ r.size ∧ offset = r.offset ∧
      rest = before ++ (if r.size = size then [] else [⟨r.offset + size, r.size - size⟩]) ++
        behind := by
  induction free generalizing offset rest with
  | nil => cases h
  | cons s free ih =>
    rw [take?] at h
    split at h
    · rename_i hfits
      refine ⟨[], s, free, rfl, by simp, hfits, ?_⟩
      split at h
      · rename_i hall
        cases h
        simp [hall]
      · rename_i hpart
        cases h
        simp [hpart]
    · rename_i hsmall
      obtain ⟨⟨o, tail⟩, htake, heq⟩ := Option.map_eq_some_iff.1 h
      obtain ⟨before, r, behind, hfree, hbefore, hfits, ho, htail⟩ := ih htake
      cases heq
      refine ⟨s :: before, r, behind, by rw [hfree]; rfl, ?_, hfits, ho, by rw [htail]; rfl⟩
      intro x hx
      rcases List.mem_cons.1 hx with rfl | hx
      · exact Nat.not_le.1 hsmall
      · exact hbefore x hx

theorem spaced_append {xs ys : List FreeRange} : Spaced (xs ++ ys) ↔
    Spaced xs ∧ Spaced ys ∧ ∀ x ∈ xs, ∀ y ∈ ys, x.stop < y.offset := by
  induction xs with
  | nil => simp [Spaced]
  | cons x xs ih =>
    simp only [List.cons_append, Spaced, ih, List.mem_append, List.mem_cons]
    constructor
    · rintro ⟨hx, hbehind, hxs, hys, hlt⟩
      refine ⟨⟨hx, fun y hy => hbehind y (.inl hy), hxs⟩, hys, ?_⟩
      rintro z (rfl | hz) y hy
      · exact hbehind y (.inr hy)
      · exact hlt z hz y hy
    · rintro ⟨⟨hx, hbehind, hxs⟩, hys, hlt⟩
      refine ⟨hx, ?_, hxs, hys, fun z hz y hy => hlt z (.inr hz) y hy⟩
      rintro y (hy | hy)
      · exact hbehind y hy
      · exact hlt x (.inl rfl) y hy

theorem covers_append {xs ys : List FreeRange} :
    Covers (xs ++ ys) b ↔ Covers xs b ∨ Covers ys b := by
  simp [Covers, or_and_right, exists_or]

theorem sizeSum_append (xs ys : List FreeRange) : sizeSum (xs ++ ys) = sizeSum xs + sizeSum ys := by
  induction xs with
  | nil => simp [sizeSum]
  | cons x xs ih =>
    simp only [List.cons_append, sizeSum, ih]
    omega

theorem spaced_of_take? (h : Spaced free) (htake : take? size free = some (offset, rest)) :
    Spaced rest := by
  obtain ⟨before, r, behind, rfl, -, hfits, -, rfl⟩ := exists_of_take? htake
  rw [spaced_append] at h
  obtain ⟨hbefore, ⟨hr, hbehind, hspaced⟩, hlt⟩ := h
  split
  · rw [List.append_nil, spaced_append]
    exact ⟨hbefore, hspaced, fun x hx y hy => hlt x hx y (by simp [hy])⟩
  · rename_i hpart
    rw [List.append_assoc, List.singleton_append, spaced_append]
    refine ⟨hbefore, ⟨Nat.sub_pos_of_lt (Nat.lt_of_le_of_ne hfits (Ne.symm hpart)), ?_, hspaced⟩, ?_⟩
    · intro y hy
      have := hbehind y hy
      simp only [stop] at *
      omega
    · intro x hx y hy
      rcases List.mem_cons.1 hy with rfl | hy
      · have := hlt x hx r (by simp)
        simp only [stop] at *
        omega
      · exact hlt x hx y (by simp [hy])

/-- The bytes of the ranges are those that are taken and those that are left, and no byte is both. -/
theorem covers_of_take? (h : Spaced free) (htake : take? size free = some (offset, rest)) :
    Covers rest b ↔ Covers free b ∧ ¬ (offset ≤ b ∧ b < offset + size) := by
  obtain ⟨before, r, behind, rfl, -, hfits, rfl, rfl⟩ := exists_of_take? htake
  rw [spaced_append] at h
  obtain ⟨-, ⟨hr, hbehind, -⟩, hlt⟩ := h
  -- The ranges in front end before the bytes that are taken, those behind begin after them.
  have hfront : Covers before b → b < r.offset := by
    rintro ⟨x, hx, hxb⟩
    have := hlt x hx r (by simp)
    exact Nat.lt_trans hxb.2 this
  have hback : Covers behind b → r.stop < b := by
    rintro ⟨x, hx, hxb⟩
    exact Nat.lt_of_lt_of_le (hbehind x hx) hxb.1
  have hmid : Covers (if r.size = size then [] else [⟨r.offset + size, r.size - size⟩]) b ↔
      r.offset + size ≤ b ∧ b < r.stop := by
    split
    · rename_i hall
      simp only [not_covers_nil, false_iff, stop]
      omega
    · rw [covers_cons]
      simp only [not_covers_nil, or_false, Holds, stop]
      omega
  rw [covers_append, covers_append, covers_append, covers_cons, hmid]
  simp only [Holds, stop] at *
  constructor
  · rintro ((h | h) | h)
    · exact ⟨.inl h, by have := hfront h; omega⟩
    · exact ⟨.inr (.inl (by omega)), by omega⟩
    · exact ⟨.inr (.inr h), by have := hback h; omega⟩
  · rintro ⟨h | h | h, hnot⟩
    · exact .inl (.inl h)
    · exact .inl (.inr (by omega))
    · exact .inr h

/-- The bytes that are taken were free. -/
theorem covers_taken (htake : take? size free = some (offset, rest)) (hlo : offset ≤ b)
    (hhi : b < offset + size) : Covers free b := by
  obtain ⟨before, r, behind, rfl, -, hfits, rfl, -⟩ := exists_of_take? htake
  refine ⟨r, by simp, hlo, ?_⟩
  simp only [stop]
  omega

theorem sizeSum_of_take? (htake : take? size free = some (offset, rest)) :
    sizeSum rest + size = sizeSum free := by
  obtain ⟨before, r, behind, rfl, -, hfits, -, rfl⟩ := exists_of_take? htake
  simp only [sizeSum_append, sizeSum]
  split
  · simp only [sizeSum]
    omega
  · simp only [sizeSum]
    omega

/-! ## Ranges as maximal runs -/

/-- The bytes before and behind a range of a spaced list are not covered. -/
theorem not_covers_around (h : Spaced free) (hr : r ∈ free) :
    ¬ Covers free r.stop ∧ (r.offset ≠ 0 → ¬ Covers free (r.offset - 1)) := by
  obtain ⟨before, behind, rfl⟩ := List.append_of_mem hr
  rw [spaced_append] at h
  obtain ⟨-, ⟨hpos, hbehind, -⟩, hlt⟩ := h
  simp only [covers_append, covers_cons, not_or]
  refine ⟨⟨?_, ?_, ?_⟩, fun hne => ⟨?_, ?_, ?_⟩⟩
  · rintro ⟨x, hx, hxb⟩
    have := hlt x hx r (by simp)
    simp only [Holds, stop] at *
    omega
  · simp only [Holds, stop]
    omega
  · rintro ⟨x, hx, hxb⟩
    have := hbehind x hx
    simp only [Holds, stop] at *
    omega
  · rintro ⟨x, hx, hxb⟩
    have := hlt x hx r (by simp)
    simp only [Holds, stop] at *
    omega
  · simp only [Holds, stop]
    omega
  · rintro ⟨x, hx, hxb⟩
    have := hbehind x hx
    simp only [Holds, stop] at *
    omega

/-- The ranges of a spaced list are the maximal runs of the bytes that they cover. -/
theorem mem_iff_of_spaced (h : Spaced free) : r ∈ free ↔
    0 < r.size ∧ (∀ b, r.Holds b → Covers free b) ∧ ¬ Covers free r.stop ∧
      (r.offset ≠ 0 → ¬ Covers free (r.offset - 1)) := by
  constructor
  · intro hr
    exact ⟨size_pos_of_spaced h hr, fun b hb => ⟨r, hr, hb⟩, not_covers_around h hr⟩
  · rintro ⟨hpos, hall, hstop, hstart⟩
    -- The range in the list that holds the first byte of `r` begins and ends with it.
    obtain ⟨s, hs, hfirst⟩ := hall r.offset ⟨Nat.le_refl _, Nat.lt_add_of_pos_right hpos⟩
    obtain ⟨hs_stop, -⟩ := not_covers_around h hs
    have hstart' : r.offset = s.offset := by
      refine Classical.byContradiction fun hne => hstart ?_ ⟨s, hs, ?_⟩
      · simp only [Holds, stop] at *
        omega
      · simp only [Holds, stop] at *
        omega
    have hstop' : r.stop = s.stop := by
      rcases Nat.lt_trichotomy r.stop s.stop with hlt | heq | hgt
      · refine absurd ⟨s, hs, ?_⟩ hstop
        simp only [Holds, stop] at *
        omega
      · exact heq
      · refine absurd (hall s.stop ?_) hs_stop
        simp only [Holds, stop] at *
        omega
    have hrs : r = s := by
      cases r
      cases s
      simp only [stop, FreeRange.mk.injEq] at *
      omega
    exact hrs ▸ hs

/-- Each range of a spaced list ends before all later ones begin. -/
theorem pairwise_stop_of_spaced (h : Spaced free) :
    free.Pairwise fun r s => r.stop < s.offset := by
  induction free with
  | nil => exact .nil
  | cons r rest ih =>
    obtain ⟨-, hbehind, hrest⟩ := h
    exact .cons hbehind (ih hrest)

theorem pairwise_offset_of_spaced (h : Spaced free) :
    free.Pairwise fun r s => r.offset < s.offset :=
  (pairwise_stop_of_spaced h).imp fun hgap => Nat.lt_of_le_of_lt (Nat.le_add_right ..) hgap

/-- Lists with the same members, both sorted by offset, are equal. -/
theorem eq_of_mem_iff {free free' : List FreeRange}
    (h : free.Pairwise fun r s => r.offset < s.offset)
    (h' : free'.Pairwise fun r s => r.offset < s.offset) (hmem : ∀ r, r ∈ free ↔ r ∈ free') :
    free = free' := by
  have hne : ∀ {r s : FreeRange}, r.offset < s.offset → r ≠ s := by
    rintro r s hlt rfl
    exact Nat.lt_irrefl _ hlt
  have hnodup : ∀ {l : List FreeRange}, (l.Pairwise fun r s => r.offset < s.offset) → l.Nodup :=
    fun hl => hl.imp hne
  refine ((List.perm_ext_iff_of_nodup (hnodup h) (hnodup h')).2 hmem).eq_of_pairwise ?_ h h'
  intro r s _ _ hrs hsr
  omega

end StatefulPages.FreeRange
