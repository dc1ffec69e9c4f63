import StatefulPages.Proofs.Routing.ParameterEncoders
import StatefulPages.Routing.Mount

/-!
# What placeholders take

Writing a page at a mount, placeholders take the first values of their names out of the parameters
(`Mount.fill`); reading it, they put the segments back as parameters (`Mount.captures`).

* `fill_rest`: the parameters that are left are those of other names;
* `captures_fill`: the segments that were written are read as the first values of the names;
* `perm_others_firsts_iff`: with the parameters of other names, less some of them, these are all
  parameters exactly if each name had one value and none was left out.
-/

namespace StatefulPages

/-! ## Parameters by name -/

namespace Parameters

variable {p : Parameters} {name : String} {names : List String}

/-- The named parameters with none of these names. -/
def others (p : Parameters) (names : List String) : List NamedValue :=
  p.named.filter fun v => v.name ∉ names

/-- A name with its first value, which is empty if there is none. -/
def firstOf (p : Parameters) (name : String) : NamedValue :=
  { name, value := (p.get? name).getD "" }

theorem others_nil (p : Parameters) : p.others [] = p.named := by
  simp [others]

theorem others_remove (p : Parameters) (name : String) (names : List String) :
    (p.remove name).others names = p.others (name :: names) := by
  rw [others, others, remove, List.filter_filter]
  apply List.filter_congr
  intro v _
  simp [Bool.and_comm]

theorem get?_remove_of_ne {other : String} (h : other ≠ name) :
    (p.remove name).get? other = p.get? other := by
  rw [get?, get?, remove, List.find?_filter]
  congr 2
  funext v
  by_cases hv : v.name = other <;> simp [hv, h]

theorem map_firstOf_remove (h : name ∉ names) :
    names.map (p.remove name).firstOf = names.map p.firstOf := by
  apply List.map_congr_left
  intro other hother
  have hne : other ≠ name := fun heq => h (heq ▸ hother)
  rw [firstOf, firstOf, get?_remove_of_ne hne]

theorem length_values (p : Parameters) (name : String) :
    (p.values name).length = p.named.countP (·.name = name) := by
  rw [values, List.length_map, List.countP_eq_length_filter]

/-- Where a name has one value, the parameters are those of other names and this one. -/
theorem perm_remove_append_firstOf (h : (p.values name).length = 1) :
    ((p.remove name).named ++ [p.firstOf name]).Perm p.named := by
  have hfilter : p.named.filter (·.name = name) = [p.firstOf name] := by
    rw [values, List.length_map, List.length_eq_one_iff] at h
    obtain ⟨v, hv⟩ := h
    have hname : v.name = name := by
      have hmem : v ∈ p.named.filter (·.name = name) := by simp [hv]
      simpa using (List.mem_filter.1 hmem).2
    rw [hv, firstOf, get?, ← List.head?_filter, hv, ← hname]
    rfl
  have hperm := List.filter_append_perm (fun v : NamedValue => decide (v.name ≠ name)) p.named
  have hnot : (fun v : NamedValue => !decide (v.name ≠ name)) = fun v => decide (v.name = name) := by
    funext v
    simp
  rw [hnot, hfilter] at hperm
  exact hperm

theorem perm_others_firsts (hnodup : names.Nodup)
    (h : ∀ name ∈ names, (p.values name).length = 1) :
    (p.others names ++ names.map p.firstOf).Perm p.named := by
  induction names generalizing p with
  | nil => simp [others_nil]
  | cons name names ih =>
    obtain ⟨hnot, hnodup⟩ := List.nodup_cons.1 hnodup
    have hvalues : ∀ other ∈ names, ((p.remove name).values other).length = 1 := by
      intro other hother
      have hne : other ≠ name := fun heq => hnot (heq ▸ hother)
      rw [← h other (List.mem_cons_of_mem _ hother), values, values, remove, List.filter_filter]
      congr 2
      apply List.filter_congr
      intro v _
      by_cases hv : v.name = other <;> simp [hv, hne]
    have hrest := ih hnodup hvalues
    rw [others_remove, map_firstOf_remove hnot] at hrest
    rw [List.map_cons]
    -- the value of the first name moves behind the others
    have hswap : ([p.firstOf name] ++ names.map p.firstOf).Perm
        (names.map p.firstOf ++ [p.firstOf name]) := List.perm_append_comm
    refine (hswap.append_left _).trans ?_
    rw [← List.append_assoc]
    exact (hrest.append_right _).trans (perm_remove_append_firstOf (h name List.mem_cons_self))

theorem countP_others (hname : name ∈ names) (keep : NamedValue → Bool) :
    ((p.others names).filter keep).countP (·.name = name) = 0 := by
  rw [List.countP_eq_zero]
  intro v hv
  have hother := (List.mem_filter.1 (List.mem_filter.1 hv).1).2
  simp only [decide_eq_true_eq] at hother ⊢
  exact fun heq => hother (heq ▸ hname)

theorem countP_map_firstOf (hnodup : names.Nodup) (hname : name ∈ names) :
    (names.map p.firstOf).countP (·.name = name) = 1 := by
  have hcount : names.count name = 1 := by rw [hnodup.count, if_pos hname]
  rw [List.countP_map, ← hcount, List.count]
  apply List.countP_congr
  intro other _
  simp only [Function.comp_apply, decide_eq_true_eq, beq_iff_eq]
  exact Iff.rfl

/-- The first values of names and the kept ones of the other parameters are all parameters exactly
if each of the names has one value and all others are kept. -/
theorem perm_others_firsts_iff (hnodup : names.Nodup) (keep : NamedValue → Bool) :
    ((p.others names).filter keep ++ names.map p.firstOf).Perm p.named ↔
      (∀ name ∈ names, (p.values name).length = 1) ∧ ∀ v ∈ p.others names, keep v := by
  constructor
  · intro hperm
    have hsingle : ∀ name ∈ names, (p.values name).length = 1 := by
      intro name hname
      rw [length_values, ← hperm.countP_eq, List.countP_append, countP_others hname,
        countP_map_firstOf hnodup hname]
    have hkept : ((p.others names).filter keep).Perm (p.others names) :=
      (List.perm_append_right_iff _).1 (hperm.trans (perm_others_firsts hnodup hsingle).symm)
    exact ⟨hsingle, List.length_filter_eq_length_iff.1 hkept.length_eq⟩
  · intro h
    rw [List.filter_eq_self.2 h.2]
    exact perm_others_firsts hnodup h.1

end Parameters

/-! ## Placeholders -/

namespace Mount

/-- The names of the placeholders of a path. -/
def names : List MountSegment → List String
  | [] => []
  | .literal _ :: ms => names ms
  | .placeholder name :: ms => name :: names ms

variable {ms : List MountSegment} {rest : List String}

theorem fill_rest (ms : List MountSegment) (p : Parameters) :
    (fill ms p).2 = { p with named := p.others (names ms) } := by
  induction ms generalizing p with
  | nil => rw [fill, names, Parameters.others_nil]
  | cons s ms ih =>
    cases s with
    | literal text => exact ih p
    | placeholder name =>
      rw [fill, names, ← Parameters.others_remove]
      exact ih (p.remove name)

theorem length_fill (ms : List MountSegment) (p : Parameters) :
    (fill ms p).1.length = ms.length := by
  induction ms generalizing p with
  | nil => rfl
  | cons s ms ih =>
    cases s with
    | literal text => simp [fill, ih]
    | placeholder name => simp [fill, ih]

/-- The segments that are written suit the path. -/
theorem all_fits_fill (ms : List MountSegment) (p : Parameters) (rest : List String) :
    (ms.zip ((fill ms p).1 ++ rest)).all (fun (s, segment) => s.fits segment) = true := by
  induction ms generalizing p with
  | nil => rfl
  | cons s ms ih =>
    cases s with
    | literal text => simpa [fill, MountSegment.fits] using ih p
    | placeholder name => simpa [fill, MountSegment.fits] using ih (p.remove name)

/-- The segments that are written are read as the first values of the names. -/
theorem captures_fill (hnodup : (names ms).Nodup) (p : Parameters) (rest : List String) :
    captures ms ((fill ms p).1 ++ rest) = (names ms).map p.firstOf := by
  induction ms generalizing p with
  | nil => simp [captures, names]
  | cons s ms ih =>
    cases s with
    | literal text => exact ih hnodup p
    | placeholder name =>
      obtain ⟨hnot, hnodup⟩ := List.nodup_cons.1 hnodup
      rw [names, List.map_cons, ← Parameters.map_firstOf_remove hnot, ← ih hnodup]
      rfl

/-- Only a single placeholder without a value is written as a single empty segment. -/
theorem fill_append_eq_blank_iff (hne : ms ≠ []) (hpart : ∀ s ∈ ms, s.IsPart) (p : Parameters) :
    (fill ms p).1 ++ rest = [""] ↔
      (∃ name, ms = [.placeholder name] ∧ (p.get? name).getD "" = "") ∧ rest = [] := by
  cases ms with
  | nil => exact absurd rfl hne
  | cons s ms =>
    cases s with
    | literal text =>
      have htext : text ≠ "" := (hpart _ List.mem_cons_self).1
      simp [fill, htext]
    | placeholder name =>
      have hnil : (fill ms (p.remove name)).1 = [] ↔ ms = [] := by
        rw [← List.length_eq_zero_iff, length_fill, List.length_eq_zero_iff]
      simp [fill, hnil, and_assoc, and_left_comm]

end Mount

end StatefulPages
