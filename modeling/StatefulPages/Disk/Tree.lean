import StatefulPages.Disk.IoError
import StatefulPages.Keyed

/-!
# Trees of folders and files

A folder has files and folders by name. What a file holds is not part of the tree, only the number
under which it is kept.

* `get?_append`: a location can be looked up part by part;
* `get?_update_self`, `get?_update_of_ne`: an update changes one location, and none beside it.
-/

namespace StatefulPages

/-- A file or a folder. -/
inductive Tree where
  | file (number : Nat)
  | folder (entries : Keyed Tree)

/-- The names from the root of a tree to a file or folder. -/
abbrev Location := List String

namespace Tree

/-- A folder without entries. -/
def empty : Tree := folder {}

instance : Inhabited Tree := ⟨empty⟩

/-- What is at a location, seen from what may be a tree. -/
def get? : Option Tree → Location → Option Tree
  | t, [] => t
  | some (folder entries), name :: names => get? (entries.get? name) names
  | some (file _), _ :: _ => none
  | none, _ :: _ => none

/-- Changes what is at a location, if the folders above it are there. -/
def update (change : Option Tree → Option Tree) : Option Tree → Location → Option Tree
  | t, [] => change t
  | some (folder entries), name :: names =>
    match update change (entries.get? name) names with
    | some t => some (folder (entries.set name t))
    | none => some (folder (entries.erase name))
  | some (file n), _ :: _ => some (file n)
  | none, _ :: _ => none

/-- The longest name in bytes. -/
def maxNameLength : Nat := 255

/-- Makes a folder and those above it, where they are missing. If that fails at a name, the folders
before it are made. -/
def makeFolders : Tree → Location → Except IoError Unit × Tree
  | folder entries, [] => (.ok (), folder entries)
  | file n, [] => (.error .alreadyExists, file n)
  | file n, _ :: _ => (.error .notAFolder, file n)
  | folder entries, name :: names =>
    if maxNameLength < name.utf8ByteSize then (.error .nameTooLong, folder entries)
    else
      let (result, t) := makeFolders ((entries.get? name).getD empty) names
      (result, folder (entries.set name t))

@[simp] theorem get?_none (place : Location) : get? none place = none := by
  cases place <;> rfl

theorem get?_append (t : Option Tree) (p q : Location) : get? t (p ++ q) = get? (get? t p) q := by
  induction p generalizing t with
  | nil => cases t <;> rfl
  | cons name names ih =>
    match t with
    | some (folder entries) => exact ih _
    | some (file _) => simp [get?]
    | none => simp

/-- An update changes the location that it is for. -/
theorem get?_update_self (change : Option Tree → Option Tree) {t : Option Tree} {p : Location}
    {entries : Keyed Tree} (h : get? t p = some (folder entries)) (name : String) :
    get? (update change t (p ++ [name])) (p ++ [name]) = change (entries.get? name) := by
  induction p generalizing t with
  | nil =>
    have ht : t = some (folder entries) := by
      cases t with
      | none => simp [get?] at h
      | some t => simpa [get?] using h
    subst ht
    cases hc : change (entries.get? name) with
    | none => simp [update, get?, hc]
    | some s => simp [update, get?, hc]
  | cons first names ih =>
    match t, h with
    | some (folder es), h =>
      have ih := ih (t := es.get? first) h
      rw [List.cons_append, update]
      split
      · rename_i s hs
        rw [hs] at ih
        simpa [get?] using ih
      · rename_i hs
        rw [hs] at ih
        simpa [get?] using ih
    | some (file _), h => simp [get?] at h
    | none, h => simp at h

/-- An update changes no location that parts from its own. -/
theorem get?_update_of_ne (change : Option Tree → Option Tree) (t : Option Tree) (p : Location)
    {name other : String} (h : other ≠ name) (below rest : Location) :
    get? (update change t (p ++ name :: below)) (p ++ other :: rest) =
      get? t (p ++ other :: rest) := by
  induction p generalizing t with
  | nil =>
    match t with
    | some (folder entries) =>
      rw [List.nil_append, List.nil_append, update]
      split <;> simp [get?, h]
    | some (file _) => simp [update]
    | none => simp [update]
  | cons first names ih =>
    match t with
    | some (folder entries) =>
      have ih := ih (entries.get? first)
      rw [List.cons_append, List.cons_append, update]
      split
      · rename_i s hs
        rw [hs] at ih
        simpa [get?] using ih
      · rename_i hs
        rw [hs] at ih
        simpa [get?] using ih
    | some (file _) => simp [update]
    | none => simp [update]

end Tree

end StatefulPages
