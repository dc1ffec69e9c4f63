import StatefulPages.Parameters

/-!
# When parameters are the same

Parameters are compared with the named ones sorted. The order is linear, so sorted lists are equal
exactly if each is a reordering of the other. A change to parameters that are the same leaves them
the same.

* `NamedValue.le_trans`, `NamedValue.le_total`, `NamedValue.le_antisymm`: the order is linear;
* `Parameters.sorted_eq_iff`: what sorting makes equal;
* `Parameters.beq_iff`: what the comparison of parameters says;
* `Parameters.equivalence_beq_congr`: it is an equivalence, and changes and look-ups respect it.
-/

namespace StatefulPages

/-! ## The order of named values -/

namespace NamedValue

theorem le_iff {a b : NamedValue} :
    a.le b = true ↔ a.name < b.name ∨ a.name = b.name ∧ a.value ≤ b.value := by
  rw [le, Bool.or_eq_true, Bool.and_eq_true, decide_eq_true_eq, decide_eq_true_eq, decide_eq_true_eq]

theorem le_trans (a b c : NamedValue) (hab : a.le b = true) (hbc : b.le c = true) :
    a.le c = true := by
  rw [le_iff] at hab hbc ⊢
  rcases hab with hab | ⟨hab, hvalue⟩
  · rcases hbc with hbc | ⟨hbc, -⟩
    · exact .inl (String.lt_trans hab hbc)
    · exact .inl (hbc ▸ hab)
  · rw [hab]
    exact hbc.imp_right fun ⟨hname, hle⟩ => ⟨hname, String.le_trans hvalue hle⟩

theorem le_total (a b : NamedValue) : (a.le b || b.le a) = true := by
  rw [Bool.or_eq_true, le_iff, le_iff]
  by_cases hname : a.name = b.name
  · exact (String.le_total a.value b.value).imp (fun h => .inr ⟨hname, h⟩)
      (fun h => .inr ⟨hname.symm, h⟩)
  · by_cases hlt : a.name < b.name
    · exact .inl (.inl hlt)
    · have hle : b.name ≤ a.name := String.not_lt.1 hlt
      refine .inr (.inl (String.not_le.1 fun hge => hname ?_))
      exact String.le_antisymm hge hle

theorem le_antisymm {a b : NamedValue} (hab : a.le b = true) (hba : b.le a = true) : a = b := by
  rw [le_iff] at hab hba
  rcases hab with hab | ⟨hname, hab⟩
  · rcases hba with hba | ⟨hname, -⟩
    · exact absurd (String.lt_trans hab hba) (String.lt_irrefl _)
    · exact absurd (hname ▸ hab) (String.lt_irrefl _)
  · rcases hba with hba | ⟨-, hba⟩
    · exact absurd (hname ▸ hba) (String.lt_irrefl _)
    · cases a
      cases b
      cases hname
      cases String.le_antisymm hab hba
      rfl

end NamedValue

/-! ## Parameters -/

namespace Parameters

variable {a b c : Parameters}

theorem sorted_perm (p : Parameters) : p.sorted.Perm p.named :=
  List.mergeSort_perm ..

theorem pairwise_sorted (p : Parameters) : p.sorted.Pairwise fun v w => v.le w = true :=
  List.pairwise_mergeSort NamedValue.le_trans NamedValue.le_total p.named

/-- Sorted, the named parameters are equal exactly if they are the same up to order. -/
theorem sorted_eq_iff : a.sorted = b.sorted ↔ a.named.Perm b.named := by
  constructor
  · intro h
    exact a.sorted_perm.symm.trans (h ▸ b.sorted_perm)
  · intro h
    have hperm : a.sorted.Perm b.sorted := a.sorted_perm.trans (h.trans b.sorted_perm.symm)
    exact hperm.eq_of_pairwise (fun _ _ _ _ => NamedValue.le_antisymm) a.pairwise_sorted
      b.pairwise_sorted

theorem beq_iff : (a == b) = true ↔ a.indexed = b.indexed ∧ a.named.Perm b.named := by
  show (a.indexed == b.indexed && a.named.length == b.named.length && a.sorted == b.sorted) = true ↔ _
  rw [Bool.and_eq_true, Bool.and_eq_true, beq_iff_eq, beq_iff_eq, beq_iff_eq, sorted_eq_iff, and_assoc]
  exact and_congr_right fun _ => and_iff_right_of_imp List.Perm.length_eq

theorem equivalence_beq : Equivalence fun a b : Parameters => (a == b) = true where
  refl _ := beq_iff.2 ⟨rfl, .refl _⟩
  symm h := beq_iff.2 ((beq_iff.1 h).imp Eq.symm List.Perm.symm)
  trans hab hbc :=
    beq_iff.2 ⟨(beq_iff.1 hab).1.trans (beq_iff.1 hbc).1, (beq_iff.1 hab).2.trans (beq_iff.1 hbc).2⟩

/-! ## Changes and look-ups -/

theorem beq_add (h : (a == b) = true) (name value : String) :
    (a.add name value == b.add name value) = true :=
  beq_iff.2 ((beq_iff.1 h).imp_right fun hperm => hperm.append_right _)

theorem beq_remove (h : (a == b) = true) (name : String) : (a.remove name == b.remove name) = true :=
  beq_iff.2 ((beq_iff.1 h).imp_right fun hperm => hperm.filter _)

theorem beq_set (h : (a == b) = true) (name value : String) :
    (a.set name value == b.set name value) = true :=
  beq_add (beq_remove h name) name value

theorem beq_setIndexed (h : (a == b) = true) (i : Nat) (value : String) :
    (a.setIndexed i value == b.setIndexed i value) = true := by
  obtain ⟨hindexed, hperm⟩ := beq_iff.1 h
  refine beq_iff.2 ⟨?_, hperm⟩
  rw [setIndexed, setIndexed, hindexed]

theorem values_perm (h : (a == b) = true) (name : String) : (a.values name).Perm (b.values name) :=
  ((beq_iff.1 h).2.filter _).map _

theorem head?_values (p : Parameters) (name : String) : (p.values name).head? = p.get? name := by
  rw [values, List.head?_map, List.head?_filter, get?]

/-- Where a name has no second value, the order of the named parameters does not show. -/
theorem get?_eq_of_beq (h : (a == b) = true) {name : String} (hsingle : (a.values name).length ≤ 1) :
    a.get? name = b.get? name := by
  have hperm := values_perm h name
  have hvalues : a.values name = b.values name := by
    cases ha : a.values name with
    | nil =>
      rw [ha] at hperm
      exact hperm.nil_eq
    | cons value rest =>
      rw [ha, List.length_cons] at hsingle
      have hrest : rest = [] := List.length_eq_zero_iff.1 (by omega)
      rw [ha, hrest] at hperm
      rw [hrest]
      exact List.singleton_perm.1 hperm
  rw [← head?_values, ← head?_values, hvalues]

/-- Parameters are the same exactly if their indexed ones are equal and their named ones are a
reordering of each other, which is an equivalence. Changing the same parameters in the same way gives the
same parameters. A name has the same values up to order in both, and the same first value if it has at
most one. -/
theorem equivalence_beq_congr :
    (∀ a b : Parameters, (a == b) = true ↔ a.indexed = b.indexed ∧ a.named.Perm b.named) ∧
    Equivalence (fun a b : Parameters => (a == b) = true) ∧
    ∀ a b : Parameters, (a == b) = true → ∀ (name value : String) (i : Nat),
      (a.add name value == b.add name value) = true ∧
      (a.set name value == b.set name value) = true ∧
      (a.remove name == b.remove name) = true ∧
      (a.setIndexed i value == b.setIndexed i value) = true ∧
      (a.values name).Perm (b.values name) ∧
      ((a.values name).length ≤ 1 → a.get? name = b.get? name) :=
  ⟨fun _ _ => beq_iff, equivalence_beq, fun _ _ h name value i =>
    ⟨beq_add h name value, beq_set h name value, beq_remove h name, beq_setIndexed h i value,
      values_perm h name, get?_eq_of_beq h⟩⟩

/-- A filter with two values for one name. -/
def tagged : Parameters where
  indexed := ["list"]
  named := [⟨"tag", "new"⟩, ⟨"page", "2"⟩, ⟨"tag", "free"⟩]

/-- The same filter, with the values in another order. -/
def retagged : Parameters where
  indexed := ["list"]
  named := [⟨"tag", "free"⟩, ⟨"tag", "new"⟩, ⟨"page", "2"⟩]

/-- Of the name with two values the first one differs, and all else is the same. -/
theorem equivalence_beq_congr_of_tagged :
    (tagged == retagged) = true ∧
    (tagged.set "tag" "old" == retagged.set "tag" "old") = true ∧
    (tagged.setIndexed 2 "old" == retagged.setIndexed 2 "old") = true ∧
    (tagged.values "tag").Perm (retagged.values "tag") ∧
    tagged.get? "tag" ≠ retagged.get? "tag" ∧
    (tagged.values "page").length ≤ 1 ∧ tagged.get? "page" = retagged.get? "page" := by
  have hsame : (tagged == retagged) = true :=
    (equivalence_beq_congr.1 tagged retagged).2 ⟨rfl, by decide⟩
  obtain ⟨-, hset, -, hsetIndexed, hvalues, -⟩ :=
    equivalence_beq_congr.2.2 tagged retagged hsame "tag" "old" 2
  obtain ⟨-, -, -, -, -, hget⟩ := equivalence_beq_congr.2.2 tagged retagged hsame "page" "" 0
  exact ⟨hsame, hset, hsetIndexed, hvalues, by decide, by decide, hget (by decide)⟩

end Parameters

end StatefulPages
