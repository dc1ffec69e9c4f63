import StatefulPages.Disk.Path

/-!
# The folder of a store

A store keeps its files in a folder that is named after the application: the index, and for each
session a folder with its data file. `StoreFolder.folderName` makes a name of any session id.

* `isName_folderName`: it names a folder within the store's folder, whatever the session id is.
-/

namespace StatefulPages

/-- The name of a session. -/
abbrev SessionId := String

/-- The folder that holds the files of a store. -/
structure StoreFolder where
  root : Path
  deriving DecidableEq, Repr, Inhabited

namespace StoreFolder

/-- The folder for an application, within one that many applications may use. -/
def ofApplication (folder : Path) (application : String) : StoreFolder :=
  { root := folder.join (application ++ "-filestore") }

/-- The name of the index. -/
def indexName : String := "PageStoreIndex"

/-- The name of the data file in the folder of a session. -/
def dataName : String := "data"

/-- Replaces what separates names or may stand for other names. -/
def plainChar (c : Char) : Char :=
  if c = '*' ∨ c = '/' ∨ c = '\\' ∨ c = ':' then '_' else c

/-- The name of the folder of a session. A name of dots alone would be that of another folder. -/
def folderName (session : SessionId) : String :=
  let cs := session.toList.map plainChar
  String.ofList (if cs.all (· = '.') then List.replicate (max cs.length 1) '_' else cs)

/-- The path of the index. -/
def indexFile (f : StoreFolder) : Path :=
  f.root.join indexName

/-- The folder of a session. -/
def sessionFolder (f : StoreFolder) (session : SessionId) : Path :=
  f.root.join (folderName session)

/-- The data file in the folder of a session. -/
def dataFileIn (folder : Path) : Path :=
  folder.join dataName

theorem plainChar_ne_slash (c : Char) : plainChar c ≠ '/' := by
  unfold plainChar
  split
  · decide
  · rename_i h
    simp only [not_or] at h
    exact h.2.1

/-- The folder of a session lies within that of the store, and is another one. -/
theorem isName_folderName (session : SessionId) : Path.IsName (folderName session) := by
  have hne : ∀ {cs : List Char} {s : String}, cs ≠ s.toList → String.ofList cs ≠ s := by
    intro cs s h heq
    exact h (by rw [← heq, String.toList_ofList])
  unfold folderName
  dsimp only
  split
  · obtain ⟨n, hn⟩ : ∃ n, max (session.toList.map plainChar).length 1 = n + 1 :=
      ⟨max (session.toList.map plainChar).length 1 - 1, by omega⟩
    rw [hn]
    refine ⟨hne ?_, hne ?_, hne ?_, ?_⟩
    · simp
    · simp [List.replicate_succ]
    · simp [List.replicate_succ]
    · simp
  · rename_i h
    refine ⟨hne fun he => h ?_, hne fun he => h ?_, hne fun he => h ?_, ?_⟩
    · rw [he]; rfl
    · rw [he]; rfl
    · rw [he]; rfl
    · simp [plainChar_ne_slash]

end StoreFolder

end StatefulPages
