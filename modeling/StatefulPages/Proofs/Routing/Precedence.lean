import Mathlib.Data.Nat.Basic
import Mathlib.Order.MinMax
import StatefulPages.Proofs.Routing.SiteUrls

/-!
# Which of several mappers reads a request

A request is read by the mapper with the highest score among those that can read it, and of these by
the one that was added last.

* `IsFirstGreatest`: the first element of a list with the greatest value;
* `Mapper.IsBest`: the mapper of a list that has precedence for a request;
* `Mapper.ranked_append_cons`: what the order by score puts in front of a mapper;
* `Mapper.decode_of_isBest`: what the mappers read is what that mapper reads;
* `Mapper.exists_isBest`: there is one if any mapper can read the request.
-/

namespace StatefulPages

/-! ## The first of the greatest -/

section IsFirstGreatest

variable {α β : Type _} [LinearOrder β] {p : α → Prop} {f : α → β} {l : List α} {x y : α}

/-- Indicates the first element of a list with the greatest value, among those with a property. -/
def IsFirstGreatest (p : α → Prop) (f : α → β) (l : List α) (x : α) : Prop :=
  p x ∧ ∃ before after, l = before ++ x :: after ∧
    (∀ y ∈ before, p y → f y < f x) ∧ ∀ y ∈ after, p y → f y ≤ f x

theorem IsFirstGreatest.mem (h : IsFirstGreatest p f l x) : x ∈ l := by
  obtain ⟨-, before, after, rfl, -⟩ := h
  exact List.mem_append_right _ List.mem_cons_self

theorem IsFirstGreatest.le (h : IsFirstGreatest p f l x) (hy : y ∈ l) (hpy : p y) : f y ≤ f x := by
  obtain ⟨-, before, after, rfl, hbefore, hafter⟩ := h
  rw [List.mem_append, List.mem_cons] at hy
  rcases hy with hy | rfl | hy
  · exact le_of_lt (hbefore y hy hpy)
  · exact le_refl _
  · exact hafter y hy hpy

theorem IsFirstGreatest.unique (h : IsFirstGreatest p f l x) (h' : IsFirstGreatest p f l y) :
    x = y := by
  have hvalue : f x = f y := le_antisymm (h'.le h.mem h.1) (h.le h'.mem h'.1)
  obtain ⟨hx, before, after, rfl, hbefore, -⟩ := h
  obtain ⟨hy, before', after', hsplit, hbefore', -⟩ := h'
  rw [List.append_eq_append_iff] at hsplit
  -- neither can stand in front of the other, as its value would be less
  rcases hsplit with ⟨between, rfl, hrest⟩ | ⟨between, rfl, hrest⟩
  · cases between with
    | nil => exact (List.cons.inj hrest).1
    | cons z between =>
      obtain ⟨rfl, -⟩ := List.cons.inj hrest
      exact absurd hvalue (ne_of_lt (hbefore' x (by simp) hx))
  · cases between with
    | nil => exact (List.cons.inj hrest).1.symm
    | cons z between =>
      obtain ⟨rfl, -⟩ := List.cons.inj hrest
      exact absurd hvalue.symm (ne_of_lt (hbefore y (by simp) hy))

theorem exists_isFirstGreatest (h : ∃ x ∈ l, p x) : ∃ x, IsFirstGreatest p f l x := by
  induction l with
  | nil =>
    obtain ⟨x, hx, -⟩ := h
    exact absurd hx List.not_mem_nil
  | cons x l ih =>
    by_cases hrest : ∃ y ∈ l, p y
    · obtain ⟨y, hy⟩ := ih hrest
      by_cases hx : p x ∧ f y ≤ f x
      · refine ⟨x, hx.1, [], l, rfl, fun _ h => absurd h List.not_mem_nil, fun z hz hpz => ?_⟩
        exact le_trans (hy.le hz hpz) hx.2
      · obtain ⟨hpy, before, after, rfl, hbefore, hafter⟩ := hy
        refine ⟨y, hpy, x :: before, after, rfl, fun z hz hpz => ?_, hafter⟩
        rcases List.mem_cons.1 hz with rfl | hz
        · exact lt_of_not_ge fun hle => hx ⟨hpz, hle⟩
        · exact hbefore z hz hpz
    · have hx : p x := by
        obtain ⟨y, hy, hpy⟩ := h
        rcases List.mem_cons.1 hy with rfl | hy
        · exact hpy
        · exact absurd ⟨y, hy, hpy⟩ hrest
      refine ⟨x, hx, [], l, rfl, fun _ h => absurd h List.not_mem_nil, fun y hy hpy => ?_⟩
      exact absurd ⟨y, hy, hpy⟩ hrest

end IsFirstGreatest

/-! ## The mapper that has precedence -/

namespace Mapper

variable {σ : Type} [LinearOrder σ] {ms front back before after : List (Mapper σ)} {m : Mapper σ}
  {b : Buffer} {r : Request}

/-- Indicates a mapper that can read a request. -/
def Reads (m : Mapper σ) (b : Buffer) (r : Request) : Prop :=
  (m.decode b r).1.isSome = true

/-- Indicates the mapper of a list that reads a request and has precedence over all others that do:
over those in front of it by a higher score, over those behind it by one that is not lower. -/
def IsBest (ms : List (Mapper σ)) (b : Buffer) (r : Request) (m : Mapper σ) : Prop :=
  m.Reads b r ∧ ∃ before after, ms = before ++ m :: after ∧
    (∀ x ∈ before, x.Reads b r → x.score b r < m.score b r) ∧
    ∀ x ∈ after, x.Reads b r → x.score b r ≤ m.score b r

theorem IsBest.isFirstGreatest (h : IsBest ms b r m) :
    IsFirstGreatest (·.Reads b r) (·.score b r) ms m :=
  h

theorem IsBest.mem (h : IsBest ms b r m) : m ∈ ms :=
  h.isFirstGreatest.mem

/-- No mapper that reads the request has a higher score. -/
theorem IsBest.score_le (h : IsBest ms b r m) {x : Mapper σ} (hx : x ∈ ms) (hreads : x.Reads b r) :
    x.score b r ≤ m.score b r :=
  h.isFirstGreatest.le hx hreads

/-- Mappers in front of the others matter only if their scores are as high. -/
theorem IsBest.append_left (h : IsBest ms b r m)
    (hfront : ∀ x ∈ front, x.Reads b r → x.score b r < m.score b r) :
    IsBest (front ++ ms) b r m := by
  obtain ⟨hreads, before, after, rfl, hbefore, hafter⟩ := h
  refine ⟨hreads, front ++ before, after, (List.append_assoc ..).symm, ?_, hafter⟩
  intro x hx
  rcases List.mem_append.1 hx with hx | hx
  · exact hfront x hx
  · exact hbefore x hx

/-- Mappers behind the others matter only if their scores are higher. -/
theorem IsBest.append_right (h : IsBest ms b r m)
    (hback : ∀ x ∈ back, x.Reads b r → x.score b r ≤ m.score b r) :
    IsBest (ms ++ back) b r m := by
  obtain ⟨hreads, before, after, rfl, hbefore, hafter⟩ := h
  refine ⟨hreads, before, after ++ back, by rw [List.append_assoc, List.cons_append], hbefore, ?_⟩
  intro x hx
  rcases List.mem_append.1 hx with hx | hx
  · exact hafter x hx
  · exact hback x hx

theorem exists_isBest (h : ∃ m ∈ ms, m.Reads b r) : ∃ m, IsBest ms b r m :=
  exists_isFirstGreatest h

/-! ## The score of several mappers -/

theorem score_compound_nil [OfNat σ 0] : (compound ([] : List (Mapper σ))).score b r = 0 :=
  rfl

/-- Several mappers score as the one of them with the highest score. -/
theorem score_compound [OfNat σ 0] (hne : ms ≠ []) :
    (∃ m ∈ ms, m.score b r = (compound ms).score b r) ∧
      ∀ m ∈ ms, m.score b r ≤ (compound ms).score b r := by
  show (∃ m ∈ ms, _ = (ms.map (·.score b r)).max?.getD 0) ∧
    ∀ m ∈ ms, _ ≤ (ms.map (·.score b r)).max?.getD 0
  cases hmax : (ms.map (·.score b r)).max? with
  | none => exact absurd (List.map_eq_nil_iff.1 (List.max?_eq_none_iff.1 hmax)) hne
  | some n =>
    obtain ⟨hmem, hle⟩ := List.max?_eq_some_iff.1 hmax
    exact ⟨List.mem_map.1 hmem, List.forall_mem_map.1 hle⟩

/-! ## The order by score -/

/-- The mapper added last comes before the first one whose score is not higher. -/
theorem ranked_cons (m : Mapper σ) (ms : List (Mapper σ)) (b : Buffer) (r : Request) :
    ∃ l₁ l₂, ranked (m :: ms) b r = l₁ ++ m :: l₂ ∧ ranked ms b r = l₁ ++ l₂ ∧
      (∀ x ∈ l₁, m.score b r < x.score b r) ∧ ∀ x ∈ l₂, x.score b r ≤ m.score b r := by
  have htrans (x y z : σ × Mapper σ) (hxy : decide (y.1 ≤ x.1) = true)
      (hyz : decide (z.1 ≤ y.1) = true) : decide (z.1 ≤ x.1) = true := by
    rw [decide_eq_true_eq] at hxy hyz ⊢
    exact le_trans hyz hxy
  have htotal (x y : σ × Mapper σ) : (decide (y.1 ≤ x.1) || decide (x.1 ≤ y.1)) = true := by
    rw [Bool.or_eq_true, decide_eq_true_eq, decide_eq_true_eq]
    exact le_total _ _
  obtain ⟨l₁, l₂, hcons, hrest, hhigher⟩ := List.mergeSort_cons htrans htotal (m.score b r, m)
    (ms.map fun m => (m.score b r, m))
  have hsorted := List.pairwise_mergeSort htrans htotal
    ((m.score b r, m) :: ms.map fun m => (m.score b r, m))
  rw [hcons, List.pairwise_append, List.pairwise_cons] at hsorted
  -- each mapper is beside its own score
  have hscore : ∀ x ∈ l₁ ++ l₂, x.1 = x.2.score b r := by
    intro x hx
    rw [← hrest, List.mem_mergeSort, List.mem_map] at hx
    obtain ⟨y, -, rfl⟩ := hx
    rfl
  refine ⟨l₁.map (·.2), l₂.map (·.2), ?_, ?_, ?_, ?_⟩
  · rw [ranked, List.map_cons, hcons, List.map_append, List.map_cons]
  · rw [ranked, hrest, List.map_append]
  · intro x hx
    obtain ⟨p, hp, rfl⟩ := List.mem_map.1 hx
    have hlt := hhigher p hp
    rw [Bool.not_eq_true', decide_eq_false_iff_not, not_le] at hlt
    rwa [← hscore p (List.mem_append_left _ hp)]
  · intro x hx
    obtain ⟨p, hp, rfl⟩ := List.mem_map.1 hx
    have hle := hsorted.2.1.1 p hp
    rw [decide_eq_true_eq] at hle
    rwa [← hscore p (List.mem_append_right _ hp)]

/-- In front of a mapper are only those added later with no lower score, and those added before it
with a higher one. -/
theorem ranked_append_cons (before : List (Mapper σ)) (m : Mapper σ) (after : List (Mapper σ))
    (b : Buffer) (r : Request) :
    ∃ front back, ranked (before ++ m :: after) b r = front ++ m :: back ∧
      ∀ x ∈ front, (x ∈ before ∧ m.score b r ≤ x.score b r) ∨
        (x ∈ after ∧ m.score b r < x.score b r) := by
  induction before with
  | nil =>
    obtain ⟨l₁, l₂, hcons, hrest, hhigher, -⟩ := ranked_cons m after b r
    refine ⟨l₁, l₂, hcons, fun x hx => .inr ⟨?_, hhigher x hx⟩⟩
    apply (ranked_perm after b r).subset
    rw [hrest]
    exact List.mem_append_left _ hx
  | cons y before ih =>
    obtain ⟨front, back, hranked, hfront⟩ := ih
    obtain ⟨l₁, l₂, hcons, hrest, -, hlower⟩ := ranked_cons y (before ++ m :: after) b r
    have hfront' : ∀ x ∈ front, (x ∈ y :: before ∧ m.score b r ≤ x.score b r) ∨
        (x ∈ after ∧ m.score b r < x.score b r) := fun x hx =>
      (hfront x hx).imp_left (And.imp_left (List.mem_cons_of_mem y))
    rw [hranked, List.append_eq_append_iff] at hrest
    rw [List.cons_append, hcons]
    rcases hrest with ⟨as, hl₁, hm⟩ | ⟨bs, hsplit, hl₂⟩
    · cases as with
      | nil =>
        -- the new mapper stands right before `m`
        rw [List.nil_append] at hm
        rw [List.append_nil] at hl₁
        refine ⟨front ++ [y], back, by rw [hl₁, ← hm]; simp, ?_⟩
        intro x hx
        rcases List.mem_append.1 hx with hx | hx
        · exact hfront' x hx
        · rw [List.mem_singleton] at hx
          subst hx
          exact .inl ⟨List.mem_cons_self, hlower m (hm ▸ List.mem_cons_self)⟩
      | cons a as =>
        -- it stands behind `m`
        rw [List.cons_append, List.cons.injEq] at hm
        obtain ⟨rfl, rfl⟩ := hm
        exact ⟨front, as ++ y :: l₂, by rw [hl₁]; simp, hfront'⟩
    · -- it stands before `m`, with others between them
      refine ⟨l₁ ++ y :: bs, back, by rw [hl₂]; simp, ?_⟩
      intro x hx
      rw [List.mem_append, List.mem_cons] at hx
      rcases hx with hx | rfl | hx
      · exact hfront' x (hsplit ▸ List.mem_append_left _ hx)
      · refine .inl ⟨List.mem_cons_self, hlower m ?_⟩
        rw [hl₂]
        exact List.mem_append_right _ List.mem_cons_self
      · exact hfront' x (hsplit ▸ List.mem_append_right _ hx)

/-! ## Reading -/

omit [LinearOrder σ] in
/-- Mappers that cannot read a request are passed over, if they leave the buffer alone. -/
theorem decodeFirst_append (hnone : ∀ x ∈ front, x.decode b r = (none, b)) (ms : List (Mapper σ)) :
    decodeFirst (front ++ ms) b r = decodeFirst ms b r := by
  induction front with
  | nil => rfl
  | cons x front ih =>
    rw [List.cons_append, decodeFirst, hnone x List.mem_cons_self]
    exact ih fun y hy => hnone y (List.mem_cons_of_mem x hy)

omit [LinearOrder σ] in
theorem decodeFirst_cons_of_reads (hreads : m.Reads b r) (ms : List (Mapper σ)) :
    decodeFirst (m :: ms) b r = m.decode b r := by
  obtain ⟨h, hread⟩ := Option.isSome_iff_exists.1 hreads
  rw [decodeFirst]
  cases hdecode : m.decode b r with
  | mk read b' =>
    rw [hdecode] at hread
    rw [show read = some h from hread]

variable [OfNat σ 0]

/-- What no mapper can read is not read, if they leave the buffer alone. -/
theorem decode_of_not_reads (hnot : ∀ x ∈ ms, ¬ x.Reads b r)
    (hkeep : ∀ x ∈ ms, ¬ x.Reads b r → (x.decode b r).2 = b) :
    (compound ms).decode b r = (none, b) := by
  have hnone : ∀ x ∈ ranked ms b r, x.decode b r = (none, b) := by
    intro x hx
    have hmem := (ranked_perm ms b r).subset hx
    exact Prod.ext (Option.not_isSome_iff_eq_none.1 (hnot x hmem)) (hkeep x hmem (hnot x hmem))
  show decodeFirst (ranked ms b r) b r = _
  rw [← List.append_nil (ranked ms b r), decodeFirst_append hnone]
  rfl

/-- What several mappers read, one of them does, if those that cannot read it leave the buffer
alone. -/
theorem exists_reads_of_decode (hkeep : ∀ x ∈ ms, ¬ x.Reads b r → (x.decode b r).2 = b) {h : Handler}
    (hread : ((compound ms).decode b r).1 = some h) : ∃ x ∈ ms, x.Reads b r := by
  by_contra hnot
  have hnone : ∀ x ∈ ms, ¬ x.Reads b r := fun x hx hreads => hnot ⟨x, hx, hreads⟩
  rw [decode_of_not_reads hnone hkeep] at hread
  cases hread

/-- Several mappers read a request as the one of them that has precedence, if those that cannot read
it leave the buffer alone. -/
theorem decode_of_isBest (hbest : IsBest ms b r m)
    (hkeep : ∀ x ∈ ms, ¬ x.Reads b r → (x.decode b r).2 = b) :
    (compound ms).decode b r = m.decode b r := by
  obtain ⟨hreads, before, after, rfl, hbefore, hafter⟩ := hbest
  obtain ⟨front, back, hranked, hfront⟩ := ranked_append_cons before m after b r
  show decodeFirst (ranked (before ++ m :: after) b r) b r = _
  rw [hranked, decodeFirst_append, decodeFirst_cons_of_reads hreads]
  intro x hx
  have hnot : ¬ x.Reads b r := by
    intro hx'
    rcases hfront x hx with ⟨hmem, hle⟩ | ⟨hmem, hlt⟩
    · exact absurd (hbefore x hmem hx') (not_lt.2 hle)
    · exact absurd (hafter x hmem hx') (not_le.2 hlt)
  have hmem : x ∈ before ++ m :: after := by
    apply (ranked_perm _ b r).subset
    rw [hranked]
    exact List.mem_append_left _ hx
  have hnone : (x.decode b r).1 = none := by
    rwa [Reads, Option.not_isSome_iff_eq_none] at hnot
  exact Prod.ext hnone (hkeep x hmem hnot)

end Mapper

/-! ## Sites -/

namespace Site

variable {s : Site} {c : Context} {m : Mapper} {b : Buffer} {r : Request}

/-- The mappers of a site, the one added last first. -/
def mappers (s : Site) : List Mapper :=
  s.mounts.map (·.mapper s.context) ++ framework s.context

theorem mem_mappers :
    m ∈ s.mappers ↔ (∃ mount ∈ s.mounts, mount.mapper s.context = m) ∨ m ∈ framework s.context := by
  rw [mappers, List.mem_append, List.mem_map]

/-- A mount scores by its segments, and nothing where it does not fit. -/
theorem score_mount (mount : Mount) (c : Context) (b : Buffer) (r : Request) :
    (mount.mapper c).score b r = if mount.fits r.url then mount.segments.length else 0 :=
  rfl

theorem score_mount_le (mount : Mount) (c : Context) (b : Buffer) (r : Request) :
    (mount.mapper c).score b r ≤ mount.segments.length := by
  rw [score_mount]
  split
  · exact Nat.le_refl _
  · exact Nat.zero_le _

theorem score_framework_le (hm : m ∈ framework c) (b : Buffer) (r : Request) :
    m.score b r ≤ Mapper.maxScore := by
  rcases mem_framework.1 hm with rfl | rfl | rfl | rfl | rfl
  · show (if _ then Mapper.maxScore else 0) ≤ _
    split <;> decide
  · show (if _ then Mapper.maxScore else 0) ≤ _
    split <;> decide
  · show (if _ then 2 else 0) ≤ _
    split <;> decide
  · show (if _ then 998 else 0) ≤ _
    split <;> decide
  · exact Nat.zero_le _

/-- A mapper of the site's own that scores as high as a mapper can has precedence over all mounts. -/
theorem isBest_of_maxScore (hshort : ∀ mount ∈ s.mounts, mount.segments.length < Mapper.maxScore)
    (hscore : m.score b r = Mapper.maxScore) (hbest : Mapper.IsBest (framework s.context) b r m) :
    Mapper.IsBest s.mappers b r m := by
  apply hbest.append_left
  intro x hx _
  obtain ⟨mount, hmount, rfl⟩ := List.mem_map.1 hx
  rw [hscore]
  exact Nat.lt_of_le_of_lt (score_mount_le ..) (hshort mount hmount)

/-- A response that waits for the URL scores as high as a mapper can. -/
theorem score_buffered (hwaiting : (b.response? r.url).isSome = true) :
    Mapper.buffered.score b r = Mapper.maxScore :=
  if_pos hwaiting

theorem reads_buffered_iff : Mapper.buffered.Reads b r ↔ (b.response? r.url).isSome = true := by
  cases hresponse : b.response? r.url with
  | none => simp [Mapper.Reads, decode_buffered hresponse]
  | some response => simp [Mapper.Reads, Mapper.buffered, hresponse]

/-- Mappers of a site that cannot read a request leave the buffer alone. -/
theorem keep_of_not_reads (hm : m ∈ s.mappers) (hnot : ¬ m.Reads b r) : (m.decode b r).2 = b := by
  rcases mem_mappers.1 hm with ⟨mount, -, rfl⟩ | hm
  · rfl
  · rcases mem_framework.1 hm with rfl | rfl | rfl | rfl | rfl
    · rw [reads_buffered_iff, Option.not_isSome_iff_eq_none] at hnot
      rw [decode_buffered hnot]
    all_goals rfl

/-- A site reads a request as the one of its mappers that has precedence. -/
theorem decode_of_isBest (hbest : Mapper.IsBest s.mappers b r m) :
    s.mapper.decode b r = m.decode b r :=
  Mapper.decode_of_isBest hbest fun _ => keep_of_not_reads

end Site

end StatefulPages
