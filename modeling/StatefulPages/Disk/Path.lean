import StatefulPages.Text.Split

/-!
# Paths

A path is a text. `Path.parts` are what stands between its slashes, without empty parts, and
`Path.names` are those without `.`, so that two spellings of one way have the same names.

* `parts_join`, `names_join`: a plain name joined to a path is one more part and one more name.
-/

namespace StatefulPages

/-- The way to a file or folder. -/
structure Path where
  text : String
  deriving DecidableEq, Repr, Inhabited

namespace Path

/-- The parts of a text, less empty ones. -/
def partsIn (cs : List Char) : List String :=
  ((Text.splitAll '/' cs).filter (· ≠ [])).map String.ofList

/-- The parts of a path, which are names, `.` for a folder itself, and `..` for the one above. -/
def parts (p : Path) : List String :=
  partsIn p.text.toList

/-- The names that a path leads through. -/
def names (p : Path) : List String :=
  p.parts.filter (· ≠ ".")

/-- Indicates a path from the root, not from the working folder. -/
def isAbsolute (p : Path) : Bool :=
  p.text.toList.head? == some '/'

/-- Indicates a path that ends in a slash, as only that of a folder may. -/
def isForFolder (p : Path) : Bool :=
  p.text.toList.getLast? == some '/'

/-- The path of the folder that the last name is in; without a name, the folder where the path
begins. -/
def parent (p : Path) : Path :=
  ⟨(if p.isAbsolute then "/" else "") ++ "/".intercalate p.names.dropLast⟩

/-- Indicates a path that says by a `.` in front that it begins in the working folder. -/
def beginsAtDot (p : Path) : Bool :=
  !p.isAbsolute && p.parts.head? == some "."

/-- Indicates two spellings of one path. Empty parts do not tell paths apart, nor does a `.` unless
a path begins with it. -/
def isSame (p q : Path) : Bool :=
  p.isAbsolute == q.isAbsolute && p.beginsAtDot == q.beginsAtDot && p.names == q.names

theorem isSame_iff {p q : Path} : p.isSame q = true ↔
    p.isAbsolute = q.isAbsolute ∧ p.beginsAtDot = q.beginsAtDot ∧ p.names = q.names := by
  simp [isSame, and_assoc]

@[simp] theorem isSame_self (p : Path) : p.isSame p = true :=
  isSame_iff.2 ⟨rfl, rfl, rfl⟩

/-- The path of `name` within a folder; a name that begins with `/` is a path of its own. -/
def join (p : Path) (name : String) : Path :=
  if name.toList.head? = some '/' then ⟨name⟩
  else if p.text.toList.getLast?.all (· = '/') then ⟨p.text ++ name⟩
  else ⟨p.text ++ "/" ++ name⟩

/-- Indicates a name that is not empty, names neither the folder itself nor the one above, and
holds no `/`. -/
def IsName (name : String) : Prop :=
  name ≠ "" ∧ name ≠ "." ∧ name ≠ ".." ∧ '/' ∉ name.toList

instance (name : String) : Decidable (IsName name) := inferInstanceAs (Decidable (_ ∧ _))

theorem partsIn_append_cons (cs rest : List Char) :
    partsIn (cs ++ '/' :: rest) = partsIn cs ++ partsIn rest := by
  simp [partsIn, Text.splitAll_append_sep]

theorem partsIn_of_isName {name : String} (h : IsName name) : partsIn name.toList = [name] := by
  have hne : name.toList ≠ [] := by simpa using h.1
  simp [partsIn, Text.splitAll_of_notMem h.2.2.2, hne]

/-- A plain name joined to a path is one more part. -/
theorem parts_join (p : Path) {name : String} (h : IsName name) :
    (p.join name).parts = p.parts ++ [name] := by
  have hsep : name.toList.head? ≠ some '/' := fun hh =>
    h.2.2.2 (List.mem_of_mem_head? hh)
  rw [join, if_neg hsep]
  split
  · rename_i hlast
    rw [parts, parts, String.toList_append]
    cases hl : p.text.toList.getLast? with
    | none =>
      rw [List.getLast?_eq_none_iff.1 hl, List.nil_append, partsIn_of_isName h]
      rfl
    | some c =>
      rw [hl] at hlast
      obtain ⟨stem, hstem⟩ := List.getLast?_eq_some_iff.1 hl
      have hc : c = '/' := by simpa using hlast
      rw [hstem, hc, List.append_assoc, List.singleton_append, partsIn_append_cons,
        partsIn_append_cons, partsIn_of_isName h]
      rw [show partsIn [] = [] from rfl, List.append_nil]
  · rw [parts, parts, String.toList_append, String.toList_append]
    simp [partsIn_append_cons, partsIn_of_isName h]

/-- A plain name joined to a path is one more name. -/
theorem names_join (p : Path) {name : String} (h : IsName name) :
    (p.join name).names = p.names ++ [name] := by
  simp [names, parts_join p h, h.2.1]

end Path

end StatefulPages
