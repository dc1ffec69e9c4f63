/-!
# Cutting text at a separator

Texts are lists of characters here, so that every function recurses on the text itself.

* `append_splitFirst`: cutting at the first separator loses nothing;
* `intercalate_splitAll`: joining the parts of a text gives the text back;
* `splitAll_append_cons`: a part without separator in front of a separator is the first part.
-/

namespace StatefulPages.Text

/-- The text before the first `sep`, and the text after it if there is one. -/
def splitFirst (sep : Char) : List Char → List Char × Option (List Char)
  | [] => ([], none)
  | c :: cs =>
    if c = sep then ([], some cs)
    else (c :: (splitFirst sep cs).1, (splitFirst sep cs).2)

/-- The text before the last `sep` and the text after it, if there is one. -/
def splitLast? (sep : Char) (cs : List Char) : Option (List Char × List Char) :=
  match splitFirst sep cs.reverse with
  | (_, none) => none
  | (tail, some head) => some (head.reverse, tail.reverse)

/-- The parts between separators: `n` separators give `n + 1` parts. -/
def splitAll (sep : Char) : List Char → List (List Char)
  | [] => [[]]
  | c :: cs =>
    if c = sep then [] :: splitAll sep cs
    else match splitAll sep cs with
      | [] => [[c]]
      | part :: parts => (c :: part) :: parts

/-! ## Lemmas -/

theorem append_splitFirst (sep : Char) (cs : List Char) :
    (splitFirst sep cs).1 ++ ((splitFirst sep cs).2.elim [] (sep :: ·)) = cs := by
  induction cs with
  | nil => rfl
  | cons c cs ih =>
    by_cases h : c = sep
    · simp [splitFirst, h]
    · simpa [splitFirst, h] using ih

theorem sep_notMem_splitFirst (sep : Char) (cs : List Char) : sep ∉ (splitFirst sep cs).1 := by
  induction cs with
  | nil => simp [splitFirst]
  | cons c cs ih =>
    by_cases h : c = sep
    · simp [splitFirst, h]
    · simp [splitFirst, h, ih, Ne.symm h]

theorem splitFirst_of_notMem {sep : Char} {cs : List Char} (h : sep ∉ cs) :
    splitFirst sep cs = (cs, none) := by
  induction cs with
  | nil => rfl
  | cons c cs ih =>
    simp only [List.mem_cons, not_or] at h
    simp [splitFirst, Ne.symm h.1, ih h.2]

theorem splitFirst_append_cons {sep : Char} {cs : List Char} (h : sep ∉ cs) (rest : List Char) :
    splitFirst sep (cs ++ sep :: rest) = (cs, some rest) := by
  induction cs with
  | nil => simp [splitFirst]
  | cons c cs ih =>
    simp only [List.mem_cons, not_or] at h
    simp [splitFirst, Ne.symm h.1, ih h.2]

theorem splitAll_ne_nil (sep : Char) (cs : List Char) : splitAll sep cs ≠ [] := by
  cases cs with
  | nil => simp [splitAll]
  | cons c cs =>
    simp only [splitAll]
    split
    · simp
    · split <;> simp

theorem splitAll_of_notMem {sep : Char} {cs : List Char} (h : sep ∉ cs) :
    splitAll sep cs = [cs] := by
  induction cs with
  | nil => rfl
  | cons c cs ih =>
    simp only [List.mem_cons, not_or] at h
    simp [splitAll, Ne.symm h.1, ih h.2]

theorem splitAll_append_cons {sep : Char} {cs : List Char} (h : sep ∉ cs) (rest : List Char) :
    splitAll sep (cs ++ sep :: rest) = cs :: splitAll sep rest := by
  induction cs with
  | nil => simp [splitAll]
  | cons c cs ih =>
    simp only [List.mem_cons, not_or] at h
    simp [splitAll, Ne.symm h.1, ih h.2]

/-- The parts of two texts with a separator between them. -/
theorem splitAll_append_sep (sep : Char) (cs rest : List Char) :
    splitAll sep (cs ++ sep :: rest) = splitAll sep cs ++ splitAll sep rest := by
  induction cs with
  | nil => simp [splitAll]
  | cons c cs ih =>
    obtain ⟨part, parts, hp⟩ := List.exists_cons_of_ne_nil (splitAll_ne_nil sep cs)
    by_cases h : c = sep
    · simp [splitAll, h, ih]
    · simp [splitAll, h, ih, hp]

theorem intercalate_splitAll (sep : Char) (cs : List Char) :
    [sep].intercalate (splitAll sep cs) = cs := by
  induction cs with
  | nil => simp [splitAll]
  | cons c cs ih =>
    obtain ⟨part, parts, hp⟩ := List.exists_cons_of_ne_nil (splitAll_ne_nil sep cs)
    rw [hp] at ih
    by_cases h : c = sep
    · simp [splitAll, h, hp, List.intercalate_cons_cons, ih]
    · cases parts with
      | nil => simpa [splitAll, h, hp] using ih
      | cons q qs =>
        rw [List.intercalate_cons_cons] at ih
        rw [splitAll, if_neg h, hp, List.intercalate_cons_cons, List.cons_append, List.cons_append,
          ih]

theorem sep_notMem_of_mem_splitAll {sep : Char} {cs part : List Char} (h : part ∈ splitAll sep cs) :
    sep ∉ part := by
  induction cs generalizing part with
  | nil => simp_all [splitAll]
  | cons c cs ih =>
    obtain ⟨p, ps, hp⟩ := List.exists_cons_of_ne_nil (splitAll_ne_nil sep cs)
    rw [hp] at ih
    by_cases hc : c = sep
    · rw [splitAll, if_pos hc, hp, List.mem_cons] at h
      rcases h with rfl | h
      · simp
      · exact ih h
    · simp only [splitAll, if_neg hc, hp, List.mem_cons] at h
      rcases h with rfl | h
      · simpa [Ne.symm hc] using ih List.mem_cons_self
      · exact ih (by simp [h])

/-- Cutting parts that were joined, none of which holds the separator, gives the parts. -/
theorem splitAll_intercalate {sep : Char} {parts : List (List Char)} (hne : parts ≠ [])
    (h : ∀ part ∈ parts, sep ∉ part) : splitAll sep ([sep].intercalate parts) = parts := by
  induction parts with
  | nil => exact absurd rfl hne
  | cons p ps ih =>
    cases ps with
    | nil => simpa using splitAll_of_notMem (h p (by simp))
    | cons q qs =>
      rw [List.intercalate_cons_cons, List.append_assoc, List.singleton_append,
        splitAll_append_cons (h p (by simp)), ih (by simp) (fun r hr => h r (by simp [hr]))]

/-- The parts of a text hold all its characters but the separators. -/
theorem exists_mem_splitAll_iff {sep c : Char} {cs : List Char} (hc : c ≠ sep) :
    (∃ part ∈ splitAll sep cs, c ∈ part) ↔ c ∈ cs := by
  induction cs with
  | nil => simp [splitAll]
  | cons d cs ih =>
    obtain ⟨part, parts, hp⟩ := List.exists_cons_of_ne_nil (splitAll_ne_nil sep cs)
    rw [hp] at ih
    by_cases hd : d = sep
    · rw [splitAll, if_pos hd, hp, List.mem_cons, ← ih, hd]
      simp [hc]
    · rw [splitAll, if_neg hd, hp, List.mem_cons, ← ih]
      simp [or_assoc]

end StatefulPages.Text
