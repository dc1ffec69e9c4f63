import StatefulPages.Proofs.Routing.SameParameters

/-!
# Parameters in URLs

The standard encoder writes all that parameters hold, and reads all that a URL holds. The encoder that
writes pairs of segments leaves out what is no named parameter with a name, and reads more URLs than
it writes.

* `Encoder.decode_standard`: reading one by one, the standard encoder reads the segments and the query;
* `Encoder.pairs_flatMap`: which of several named parameters are read from their pairs of segments;
* `Encoder.flatMap_pairs_eq_iff`: which segments are the pairs that are read from them;
* `Encoder.reads_back_iff`: what is read as it was written, and what is written as it was read.
-/

namespace StatefulPages

/-! ## Parameters one by one -/

namespace Parameters

/-- The indexed parameter behind the last one is a further one. -/
theorem setIndexed_length {p : Parameters} {i : Nat} (h : p.indexed.length = i) (value : String) :
    p.setIndexed i value = { p with indexed := p.indexed ++ [value] } := by
  have hgap : i + 1 - p.indexed.length = 1 := by omega
  rw [setIndexed, hgap, List.set_append_right _ _ (Nat.le_of_eq h), h, Nat.sub_self]
  rfl

theorem foldl_setIndexed (p : Parameters) (segments : List String) :
    (segments.zipIdx p.indexed.length).foldl (fun p s => p.setIndexed s.2 s.1) p =
      { p with indexed := p.indexed ++ segments } := by
  induction segments generalizing p with
  | nil => simp
  | cons segment segments ih =>
    rw [List.zipIdx_cons, List.foldl_cons, setIndexed_length rfl]
    have hrest := ih { p with indexed := p.indexed ++ [segment] }
    rw [List.length_append, List.length_singleton] at hrest
    rw [hrest, List.append_assoc, List.singleton_append]

theorem foldl_add (p : Parameters) (query : List NamedValue) :
    query.foldl (fun p v => p.add v.name v.value) p = { p with named := p.named ++ query } := by
  induction query generalizing p with
  | nil => simp
  | cons v query ih =>
    rw [List.foldl_cons, ih, add, List.append_assoc, List.singleton_append]

end Parameters

/-! ## The two encoders -/

namespace Encoder

variable {segments : List String}

/-- Read one by one, the segments are the indexed parameters and the query the named ones. -/
theorem decode_standard (url : Url) :
    standard.decode url = { indexed := url.segments, named := url.query } := by
  have hindexed : url.segments.zipIdx.foldl (fun p s => p.setIndexed s.2 s.1)
      ({} : Parameters) = { indexed := url.segments } := Parameters.foldl_setIndexed {} url.segments
  show url.query.foldl _ (url.segments.zipIdx.foldl _ _) = _
  rw [hindexed, Parameters.foldl_add]
  rfl

/-- Names and values in turn are read as the parameters that have a name. -/
theorem pairs_flatMap (named : List NamedValue) :
    pairs (named.flatMap fun v => [v.name, v.value]) = named.filter (·.name ≠ "") := by
  induction named with
  | nil => rfl
  | cons v named ih =>
    rw [List.flatMap_cons, List.cons_append, List.singleton_append, pairs, ih]
    by_cases hname : v.name = ""
    · rw [if_pos hname, List.filter_cons_of_neg (by simpa using hname)]
    · rw [if_neg hname, List.filter_cons_of_pos (by simpa using hname)]

/-- Of the pairs of segments nothing is added. -/
theorem length_flatMap_pairs_le (segments : List String) :
    ((pairs segments).flatMap fun v => [v.name, v.value]).length ≤ segments.length := by
  fun_induction pairs segments with
  | case1 value rest ih =>
    rw [List.length_cons, List.length_cons]
    omega
  | case2 name value rest hname ih =>
    rw [List.flatMap_cons, List.length_append, List.length_cons, List.length_cons]
    simp only [List.length_cons, List.length_nil]
    omega
  | case3 segments _ => exact Nat.zero_le _

/-- No segment in the place of a name is empty. -/
theorem names_cons_cons_iff {name value : String} {rest : List String} :
    (∀ i, (name :: value :: rest)[2 * i]? ≠ some "") ↔ name ≠ "" ∧ ∀ i, rest[2 * i]? ≠ some "" := by
  constructor
  · intro h
    refine ⟨fun hname => h 0 (by simp [hname]), fun i => ?_⟩
    have hnext := h (i + 1)
    rwa [Nat.mul_add, List.getElem?_cons_succ, List.getElem?_cons_succ] at hnext
  · intro h i
    cases i with
    | zero => simpa using h.1
    | succ i =>
      rw [Nat.mul_add, List.getElem?_cons_succ, List.getElem?_cons_succ]
      exact h.2 i

/-- Segments are written again as they were read exactly if they are pairs with a name each. -/
theorem flatMap_pairs_eq_iff (segments : List String) :
    ((pairs segments).flatMap fun v => [v.name, v.value]) = segments ↔
      segments.length % 2 = 0 ∧ ∀ i, segments[2 * i]? ≠ some "" := by
  fun_induction pairs segments with
  | case1 value rest ih =>
    -- the pair is left out, so that the segments that are written are fewer
    have hlength := length_flatMap_pairs_le rest
    refine iff_of_false (fun heq => ?_) fun h => h.2 0 (by simp)
    rw [heq, List.length_cons, List.length_cons] at hlength
    omega
  | case2 name value rest hname ih =>
    rw [List.flatMap_cons, names_cons_cons_iff, List.length_cons, List.length_cons]
    have hparity : (rest.length + 1 + 1) % 2 = rest.length % 2 := by omega
    simp only [List.cons_append, List.nil_append, List.cons.injEq, true_and]
    rw [ih, hparity, and_iff_right hname]
  | case3 segments hshort =>
    cases segments with
    | nil => simp
    | cons segment rest =>
      cases rest with
      | nil => simp
      | cons value rest => exact absurd rfl (hshort segment value rest)

/-! ## Reading and writing -/

/-- Of what is written into the path, the named parameters with a name are read. -/
theorem decode_encode_path (p : Parameters) :
    path.decode (path.encode p) = { named := p.named.filter (·.name ≠ "") } := by
  show ({ named := pairs (p.named.flatMap fun v => [v.name, v.value]) ++ [] } : Parameters) = _
  rw [List.append_nil, pairs_flatMap]

theorem decode_encode_path_eq_iff (p : Parameters) :
    path.decode (path.encode p) = p ↔ p.indexed = [] ∧ ∀ v ∈ p.named, v.name ≠ "" := by
  rw [decode_encode_path]
  constructor
  · intro h
    have hnamed := List.filter_eq_self.1 (congrArg Parameters.named h)
    exact ⟨(congrArg Parameters.indexed h).symm, fun v hv => of_decide_eq_true (hnamed v hv)⟩
  · intro ⟨hindexed, hnamed⟩
    rw [List.filter_eq_self.2 fun v hv => decide_eq_true (hnamed v hv), ← hindexed]

/-- What is left out makes the named parameters fewer, so no other order of them is read either. -/
theorem decode_encode_path_beq_iff (p : Parameters) :
    (path.decode (path.encode p) == p) = true ↔ p.indexed = [] ∧ ∀ v ∈ p.named, v.name ≠ "" := by
  constructor
  · intro h
    rw [decode_encode_path, Parameters.beq_iff] at h
    obtain ⟨hindexed, hperm⟩ := h
    have hnamed := List.length_filter_eq_length_iff.1 hperm.length_eq
    exact ⟨hindexed.symm, fun v hv => of_decide_eq_true (hnamed v hv)⟩
  · intro h
    rw [(decode_encode_path_eq_iff p).2 h]
    exact Parameters.equivalence_beq.refl p

theorem encode_decode_path_eq_iff (url : Url) :
    path.encode (path.decode url) = url ↔
      url.query = [] ∧ url.segments.length % 2 = 0 ∧ ∀ i, url.segments[2 * i]? ≠ some "" := by
  rw [← flatMap_pairs_eq_iff]
  show ({ segments := (pairs url.segments ++ url.query).flatMap fun v => [v.name, v.value] } : Url) =
    url ↔ _
  constructor
  · intro h
    have hquery : url.query = [] := (congrArg Url.query h).symm
    rw [hquery, List.append_nil] at h
    exact ⟨hquery, congrArg Url.segments h⟩
  · intro ⟨hquery, hsegments⟩
    rw [hquery, List.append_nil, hsegments, ← hquery]

/-- The two encoders from both sides. With the standard one, parameters are read as they were written
and URLs are written as they were read. The one that writes into the path gives back, in their order,
parameters that are named and have names, and URLs that are pairs of segments, the first of each not
empty. -/
theorem reads_back_iff (p : Parameters) (url : Url) :
    standard.decode (standard.encode p) = p ∧
    standard.encode (standard.decode url) = url ∧
    ((path.decode (path.encode p) == p) = true ↔ p.indexed = [] ∧ ∀ v ∈ p.named, v.name ≠ "") ∧
    (path.decode (path.encode p) = p ↔ p.indexed = [] ∧ ∀ v ∈ p.named, v.name ≠ "") ∧
    (path.encode (path.decode url) = url ↔
      url.query = [] ∧ url.segments.length % 2 = 0 ∧ ∀ i, url.segments[2 * i]? ≠ some "") := by
  refine ⟨?_, ?_, decode_encode_path_beq_iff p, decode_encode_path_eq_iff p,
    encode_decode_path_eq_iff url⟩
  · rw [decode_standard]
    rfl
  · rw [decode_standard]
    rfl

example : Encoder.path.decode { segments := ["tag", "new", "", "x", "page"] } =
    { named := [⟨"tag", "new"⟩] } := by
  decide

end Encoder

end StatefulPages
