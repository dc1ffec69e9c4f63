/-!
# Objects that are shared

A heap holds objects that several holders refer to, by number. Reading is total: what was never
added reads as the default.

* `get_set_self`, `get_set_of_ne`: a write changes one object;
* `get_add`, `get_add_of_lt`: adding an object changes none there is.
-/

namespace StatefulPages

/-- Objects by number; the numbers from `next` on are not in use. -/
structure Heap (α : Type) where
  get : Nat → α
  next : Nat

namespace Heap

variable {α : Type}

/-- No objects. -/
def empty [Inhabited α] : Heap α :=
  { get := fun _ => default, next := 0 }

instance [Inhabited α] : Inhabited (Heap α) := ⟨empty⟩

/-- Replaces an object. -/
def set (h : Heap α) (i : Nat) (x : α) : Heap α :=
  { h with get := fun j => if j = i then x else h.get j }

/-- Adds an object under the next number. -/
def add (h : Heap α) (x : α) : Heap α :=
  { get := fun j => if j = h.next then x else h.get j, next := h.next + 1 }

@[simp] theorem get_set_self (h : Heap α) (i : Nat) (x : α) : (h.set i x).get i = x := by
  simp [set]

@[simp] theorem get_set_of_ne (h : Heap α) {i j : Nat} (x : α) (hij : j ≠ i) :
    (h.set i x).get j = h.get j := by
  simp [set, hij]

@[simp] theorem set_get (h : Heap α) (i : Nat) : h.set i (h.get i) = h := by
  have hget : (fun j => if j = i then h.get i else h.get j) = h.get := by
    funext j
    split
    · rename_i hj
      rw [hj]
    · rfl
  rw [set, hget]

@[simp] theorem next_set (h : Heap α) (i : Nat) (x : α) : (h.set i x).next = h.next := rfl

@[simp] theorem get_add (h : Heap α) (x : α) : (h.add x).get h.next = x := by
  simp [add]

@[simp] theorem get_add_of_lt (h : Heap α) {j : Nat} (x : α) (hj : j < h.next) :
    (h.add x).get j = h.get j := by
  simp [add, Nat.ne_of_lt hj]

@[simp] theorem next_add (h : Heap α) (x : α) : (h.add x).next = h.next + 1 := rfl

end Heap

end StatefulPages
