import StatefulPages.Disk.Basic

/-!
# Changing one place of a disk

What is put at a place in a folder is what is there afterwards (`get?_put_self`); what lies beside it
stays (`get?_put_of_ne`), and the folders above it stay folders (`isFolderAt_put`). Making a folder
whose parent is there is putting it there, and making one that is there changes nothing
(`makeFolders_of_isFolder`, `makeFolders_append`).
-/

namespace StatefulPages

namespace Tree

/-- Indicates a folder. -/
def IsFolder : Option Tree → Prop
  | some (folder _) => True
  | _ => False

theorem isFolder_iff {t : Option Tree} : IsFolder t ↔ ∃ entries, t = some (folder entries) := by
  cases t with
  | none => simp [IsFolder]
  | some s =>
    cases s with
    | file n => simp [IsFolder]
    | folder entries => exact ⟨fun _ => ⟨entries, rfl⟩, fun _ => trivial⟩

/-- An update below a folder leaves it a folder. -/
theorem isFolder_update (change : Option Tree → Option Tree) {t : Option Tree} {p : Location}
    (h : IsFolder (get? t p)) (name : String) (below : Location) :
    IsFolder (get? (update change t (p ++ name :: below)) p) := by
  induction p generalizing t with
  | nil =>
    obtain ⟨entries, ht⟩ := isFolder_iff.1 h
    have ht : t = some (folder entries) := by
      cases t with
      | none => cases ht
      | some s => exact ht
    rw [ht, List.nil_append, update]
    split <;> trivial
  | cons first names ih =>
    cases t with
    | none => exact (get?_none (first :: names) ▸ h : IsFolder none).elim
    | some s =>
      cases s with
      | file n => exact h.elim
      | folder es =>
        have ih := ih (t := es.get? first) h
        rw [List.cons_append, update]
        split
        · rename_i s hs
          rw [hs] at ih
          simpa [get?] using ih
        · rename_i hs
          rw [hs, get?_none] at ih
          exact ih.elim

/-- Making a folder that is there changes nothing. -/
theorem makeFolders_of_isFolder {t : Tree} {p : Location} (h : IsFolder (get? (some t) p))
    (hlen : ∀ n ∈ p, n.utf8ByteSize ≤ maxNameLength) : t.makeFolders p = (.ok (), t) := by
  induction p generalizing t with
  | nil =>
    cases t with
    | file n => exact h.elim
    | folder entries => rfl
  | cons name names ih =>
    cases t with
    | file n => exact h.elim
    | folder entries =>
      have hname : ¬ maxNameLength < name.utf8ByteSize := Nat.not_lt.2 (hlen name (by simp))
      rw [makeFolders, if_neg hname]
      cases hentry : entries.get? name with
      | none =>
        rw [get?, hentry, get?_none] at h
        exact h.elim
      | some s =>
        rw [get?, hentry] at h
        rw [Option.getD_some, ih h fun n hn => hlen n (List.mem_cons_of_mem _ hn)]
        simp [Keyed.set_of_get? hentry]

/-- Folders are made only under names that are not too long. -/
theorem name_le_of_makeFolders {t : Tree} {p : Location} (h : (t.makeFolders p).1 = .ok ()) :
    ∀ n ∈ p, n.utf8ByteSize ≤ maxNameLength := by
  induction p generalizing t with
  | nil => simp
  | cons name names ih =>
    cases t with
    | file n => cases h
    | folder entries =>
      rw [makeFolders] at h
      split at h
      · cases h
      · rename_i hname
        intro n hn
        rcases List.mem_cons.1 hn with rfl | hn
        · exact Nat.not_lt.1 hname
        · exact ih h n hn

/-- A folder in one that is there is made by putting it there. -/
theorem makeFolders_append {t : Tree} {p : Location} {entries : Keyed Tree} {name : String}
    (h : get? (some t) p = some (folder entries)) (hnone : entries.get? name = none)
    (hlen : ∀ n ∈ p ++ [name], n.utf8ByteSize ≤ maxNameLength) :
    t.makeFolders (p ++ [name]) =
      (.ok (), (update (fun _ => some empty) (some t) (p ++ [name])).getD t) := by
  induction p generalizing t with
  | nil =>
    have ht : t = folder entries := by simpa [get?] using h
    have hname : ¬ maxNameLength < name.utf8ByteSize := Nat.not_lt.2 (hlen name (by simp))
    rw [ht, List.nil_append, makeFolders, if_neg hname, hnone]
    simp [makeFolders, update, empty]
  | cons first names ih =>
    cases t with
    | file n => cases h
    | folder es =>
      have hname : ¬ maxNameLength < first.utf8ByteSize := Nat.not_lt.2 (hlen first (by simp))
      rw [List.cons_append, makeFolders, if_neg hname, update]
      cases hentry : es.get? first with
      | none =>
        rw [get?, hentry, get?_none] at h
        cases h
      | some s =>
        rw [get?, hentry] at h
        have ih := ih h fun n hn => hlen n (List.mem_cons_of_mem _ hn)
        rw [Option.getD_some, ih]
        cases hs : update (fun _ => some empty) (some s) (names ++ [name]) with
        | some s' => simp
        | none =>
          have hfolder := isFolder_update (fun _ => some empty)
            (isFolder_iff.2 ⟨entries, h⟩) name []
          rw [hs, get?_none] at hfolder
          exact hfolder.elim

end Tree

namespace Disk

/-- Two locations agree up to a name in which they differ, unless one goes on from the other. -/
theorem prefix_or_differ (p q : Location) : p <+: q ∨ q <+: p ∨
    ∃ stem a b rest rest', a ≠ b ∧ p = stem ++ a :: rest ∧ q = stem ++ b :: rest' := by
  induction p generalizing q with
  | nil => exact .inl (List.nil_prefix)
  | cons a p ih =>
    cases q with
    | nil => exact .inr (.inl (List.nil_prefix))
    | cons b q =>
      by_cases hab : a = b
      · subst hab
        rcases ih q with h | h | ⟨stem, x, y, rest, rest', hne, hp, hq⟩
        · exact .inl (List.cons_prefix_cons.2 ⟨rfl, h⟩)
        · exact .inr (.inl (List.cons_prefix_cons.2 ⟨rfl, h⟩))
        · exact .inr (.inr ⟨a :: stem, x, y, rest, rest', hne, by simp [hp], by simp [hq]⟩)
      · exact .inr (.inr ⟨[], a, b, p, q, hab, rfl, rfl⟩)

variable {d : Disk} {p : Location} {name other : String}

/-- Indicates a folder at a location. -/
def IsFolderAt (d : Disk) (p : Location) : Prop :=
  Tree.IsFolder (d.get? p)

theorem IsFolderAt.exists_entries (h : d.IsFolderAt p) :
    ∃ entries, d.get? p = some (.folder entries) :=
  Tree.isFolder_iff.1 h

theorem get?_append (d : Disk) (p q : Location) : d.get? (p ++ q) = Tree.get? (d.get? p) q :=
  Tree.get?_append _ p q

/-- The locations above a folder are folders. -/
theorem isFolderAt_of_append {q : Location} (h : d.IsFolderAt (p ++ q)) : d.IsFolderAt p := by
  rw [IsFolderAt, get?_append] at h
  rw [IsFolderAt]
  cases hp : d.get? p with
  | none =>
    rw [hp, Tree.get?_none] at h
    exact h
  | some t =>
    cases t with
    | folder entries => trivial
    | file n =>
      rw [hp] at h
      cases q with
      | nil => exact h
      | cons name rest => exact h

theorem root_put (h : d.IsFolderAt p) (name : String) (below : Location) (t : Option Tree) :
    some (d.put (p ++ name :: below) t).root =
      Tree.update (fun _ => t) (some d.root) (p ++ name :: below) := by
  have hroot := Tree.isFolder_update (fun _ => t) h name below
  rw [put]
  cases hs : Tree.update (fun _ => t) (some d.root) (p ++ name :: below) with
  | some s => rfl
  | none =>
    rw [hs, Tree.get?_none] at hroot
    exact hroot.elim

/-- What is put in a folder is what is there. -/
theorem get?_put_self (h : d.IsFolderAt p) (name : String) (t : Option Tree) :
    (d.put (p ++ [name]) t).get? (p ++ [name]) = t := by
  obtain ⟨entries, hp⟩ := h.exists_entries
  rw [get?, root_put h]
  exact Tree.get?_update_self _ hp name

/-- What is put in a folder changes nothing that lies beside it. -/
theorem get?_put_of_ne {above below : Location} {last : String} (h : d.IsFolderAt above)
    (heq : above ++ [last] = p ++ name :: below) (hne : other ≠ name) (t : Option Tree)
    (rest : Location) :
    (d.put (above ++ [last]) t).get? (p ++ other :: rest) = d.get? (p ++ other :: rest) := by
  rw [get?, root_put h, heq]
  exact Tree.get?_update_of_ne _ _ p hne below rest

/-- The folders above a place stay folders. -/
theorem isFolderAt_put (h : d.IsFolderAt p) (name : String) (below : Location) (t : Option Tree) :
    (d.put (p ++ name :: below) t).IsFolderAt p := by
  rw [IsFolderAt, get?, root_put h]
  exact Tree.isFolder_update _ h name below

theorem get?_put_append (h : d.IsFolderAt p) (name : String) (t : Option Tree) (rest : Location) :
    (d.put (p ++ [name]) t).get? (p ++ [name] ++ rest) = Tree.get? t rest := by
  rw [get?_append, get?_put_self h]

/-- After something was put in a folder, a location lies at or below it, or is a folder above it, or
has what it had. -/
theorem get?_put_cases (h : d.IsFolderAt p) (name : String) (t : Option Tree) (q : Location) :
    (∃ rest, q = p ++ [name] ++ rest) ∨ (d.put (p ++ [name]) t).IsFolderAt q ∨
      (d.put (p ++ [name]) t).get? q = d.get? q := by
  rcases prefix_or_differ q (p ++ [name]) with hpre | hpre | hdiff
  · obtain ⟨rest, hrest⟩ := hpre
    rcases List.eq_nil_or_concat rest with hnil | ⟨rest', last, hlast⟩
    · exact .inl ⟨[], by rw [← hrest, hnil]; simp⟩
    · rw [hlast, List.concat_eq_append, ← List.append_assoc] at hrest
      obtain ⟨hp, hname⟩ := List.append_inj' hrest rfl
      have hq : d.IsFolderAt q := isFolderAt_of_append (hp ▸ h)
      refine .inr (.inl ?_)
      rw [← hrest]
      cases rest' with
      | nil => simpa using isFolderAt_put hq last [] t
      | cons x rest' => simpa using isFolderAt_put hq x (rest' ++ [last]) t
  · obtain ⟨rest, hrest⟩ := hpre
    exact .inl ⟨rest, hrest.symm⟩
  · obtain ⟨stem, a, b, rest, rest', hne, hqa, hpb⟩ := hdiff
    refine .inr (.inr ?_)
    rw [hqa]
    exact get?_put_of_ne h hpb hne t rest

end Disk

end StatefulPages
