/-!
# Values by name

A list of names with a value each. Writing to a name that is there keeps its place in the list.

* `get?_set_self`, `get?_set_of_ne`: a write changes one name;
* `get?_erase_self`, `get?_erase_of_ne`: so does erasing one;
* `get?_eq_some_iff`, `mem_names_iff`: where each name occurs once, the list says what is where.
-/

namespace StatefulPages

/-- Values by name. -/
structure Keyed (α : Type) where
  entries : List (String × α) := []
  deriving DecidableEq, Repr, Inhabited

namespace Keyed

variable {α : Type}

/-- The value of a name. -/
def get? (k : Keyed α) (name : String) : Option α :=
  (k.entries.find? (·.1 = name)).map (·.2)

/-- Replaces the value of a name in a list, or appends one. -/
def setIn (name : String) (x : α) : List (String × α) → List (String × α)
  | [] => [(name, x)]
  | e :: es => if name = e.1 then (name, x) :: es else e :: setIn name x es

/-- Makes `x` the value of a name. -/
def set (k : Keyed α) (name : String) (x : α) : Keyed α :=
  { entries := setIn name x k.entries }

/-- Forgets a name. -/
def erase (k : Keyed α) (name : String) : Keyed α :=
  { entries := k.entries.filter fun e => e.1 ≠ name }

/-- The number of names. -/
def size (k : Keyed α) : Nat :=
  k.entries.length

/-- The values, in the order in which the names came. -/
def values (k : Keyed α) : List α :=
  k.entries.map (·.2)

/-- The names, in the order in which they came. -/
def names (k : Keyed α) : List String :=
  k.entries.map (·.1)

@[simp] theorem get?_set_self (k : Keyed α) (name : String) (x : α) :
    (k.set name x).get? name = some x := by
  unfold get? set
  induction k.entries with
  | nil => simp [setIn]
  | cons e es ih =>
    rw [setIn]
    split
    · simp
    · rename_i h
      rw [List.find?_cons_of_neg (by simpa using Ne.symm h)]
      exact ih

@[simp] theorem get?_set_of_ne (k : Keyed α) {name other : String} (x : α) (h : other ≠ name) :
    (k.set name x).get? other = k.get? other := by
  unfold get? set
  dsimp only
  induction k.entries with
  | nil => simp [setIn, h.symm]
  | cons e es ih =>
    rw [setIn]
    split
    · rename_i heq
      simp [← heq, h.symm]
    · rw [List.find?_cons, List.find?_cons]
      split
      · rfl
      · exact ih

@[simp] theorem get?_erase_self (k : Keyed α) (name : String) :
    (k.erase name).get? name = none := by
  simp [get?, erase, List.find?_filter]

@[simp] theorem get?_erase_of_ne (k : Keyed α) {name other : String} (h : other ≠ name) :
    (k.erase name).get? other = k.get? other := by
  unfold get? erase
  dsimp only
  rw [List.find?_filter]
  congr 2
  funext e
  by_cases he : e.1 = other <;> simp [he, h]

theorem set_of_get? {k : Keyed α} {name : String} {x : α} (h : k.get? name = some x) :
    k.set name x = k := by
  have hset : ∀ entries : List (String × α),
      (entries.find? (·.1 = name)).map (·.2) = some x → setIn name x entries = entries := by
    intro entries hfind
    induction entries with
    | nil => simp at hfind
    | cons e es ih =>
      rw [setIn]
      split
      · rename_i heq
        rw [List.find?_cons_of_pos (by simpa using heq.symm), Option.map_some,
          Option.some.injEq] at hfind
        rw [heq, ← hfind]
      · rename_i hne
        rw [List.find?_cons_of_neg (by simpa using Ne.symm hne)] at hfind
        rw [ih hfind]
  rw [set, hset k.entries h]

theorem length_setIn_le (name : String) (x : α) (es : List (String × α)) :
    (setIn name x es).length ≤ es.length + 1 := by
  induction es with
  | nil => exact Nat.le_refl _
  | cons e es ih =>
    rw [setIn]
    split
    · exact Nat.le_succ _
    · exact Nat.succ_le_succ ih

theorem size_set_le (k : Keyed α) (name : String) (x : α) : (k.set name x).size ≤ k.size + 1 :=
  length_setIn_le ..

theorem size_erase_le (k : Keyed α) (name : String) : (k.erase name).size ≤ k.size :=
  List.length_filter_le ..

/-! ## Names that occur once -/

theorem mem_names_setIn {name : String} {x : α} {es : List (String × α)} {other : String} :
    other ∈ (setIn name x es).map (·.1) ↔ other = name ∨ other ∈ es.map (·.1) := by
  induction es with
  | nil => simp [setIn]
  | cons e es ih =>
    rw [setIn]
    split
    · rename_i heq
      simp [heq]
    · rw [List.map_cons, List.mem_cons, ih, List.map_cons, List.mem_cons]
      exact or_left_comm

theorem nodup_names_set {k : Keyed α} (h : k.names.Nodup) (name : String) (x : α) :
    (k.set name x).names.Nodup := by
  have hset : ∀ es : List (String × α), (es.map (·.1)).Nodup →
      ((setIn name x es).map (·.1)).Nodup := by
    intro es hes
    induction es with
    | nil => simp [setIn]
    | cons e es ih =>
      rw [List.map_cons, List.nodup_cons] at hes
      rw [setIn]
      split
      · rename_i heq
        rw [List.map_cons, List.nodup_cons, heq]
        exact hes
      · rename_i hne
        rw [List.map_cons, List.nodup_cons, mem_names_setIn, not_or]
        exact ⟨⟨Ne.symm hne, hes.1⟩, ih hes.2⟩
  exact hset k.entries h

theorem nodup_names_erase {k : Keyed α} (h : k.names.Nodup) (name : String) :
    (k.erase name).names.Nodup :=
  (List.filter_sublist.map _).nodup h

/-- What has a key that occurs once in a list is found by it. -/
theorem find?_of_mem {β κ : Type} [DecidableEq κ] {key : β → κ} {xs : List β}
    (h : (xs.map key).Nodup) {x : β} (hx : x ∈ xs) : xs.find? (key · = key x) = some x := by
  induction xs with
  | nil => cases hx
  | cons first xs ih =>
    rw [List.map_cons, List.nodup_cons] at h
    rcases List.mem_cons.1 hx with rfl | hx
    · exact List.find?_cons_of_pos (by simp)
    · have hne : key first ≠ key x := fun heq => h.1 (heq ▸ List.mem_map_of_mem hx)
      rw [List.find?_cons_of_neg (by simpa using hne), ih h.2 hx]

/-- Names that occur once have the values that they are listed with. -/
theorem get?_eq_some_iff {k : Keyed α} (h : k.names.Nodup) {name : String} {x : α} :
    k.get? name = some x ↔ (name, x) ∈ k.entries := by
  rw [get?, Option.map_eq_some_iff]
  constructor
  · intro ⟨e, he, hx⟩
    have hname : e.1 = name := by simpa using List.find?_some he
    rw [← hname, ← hx]
    exact List.mem_of_find?_eq_some he
  · intro hmem
    exact ⟨(name, x), find?_of_mem h hmem, rfl⟩

theorem mem_names_iff {k : Keyed α} (h : k.names.Nodup) {name : String} :
    name ∈ k.names ↔ ∃ x, k.get? name = some x := by
  rw [names, List.mem_map]
  constructor
  · intro ⟨e, he, hname⟩
    exact ⟨e.2, (get?_eq_some_iff h).2 (hname ▸ he)⟩
  · intro ⟨x, hx⟩
    exact ⟨(name, x), (get?_eq_some_iff h).1 hx, rfl⟩

end Keyed

end StatefulPages
