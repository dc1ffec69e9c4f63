import StatefulPages.Proofs.Disk.Places

/-!
# Paths below a folder

A path that leads to a folder, and not through anything in it, goes on leading there whatever happens
in the folder: `Route` says which way it takes, and `Rooted` that it takes one on a disk that is
sound. Paths below the folder (`Path.Below`) are then names in a row, which can be looked up
(`locate_of_below`, `lookup_of_below`).
-/

namespace StatefulPages

/-- A path that leads on from another one through some names, all of which a disk accepts. -/
structure Path.Below (root p : Path) (names : List String) : Prop where
  parts_eq : p.parts = root.parts ++ names
  isAbsolute_eq : p.isAbsolute = root.isAbsolute
  isName : ∀ n ∈ names, Path.IsName n
  isForFolder_eq : p.isForFolder = false
  text_ne : p.text ≠ ""
  name_le : ∀ n ∈ names, n.utf8ByteSize ≤ Tree.maxNameLength
  path_ok : Disk.badPath? p = none

namespace Path

variable {p : Path} {name : String}

theorem isAbsolute_join (p : Path) (h : IsName name) : (p.join name).isAbsolute = p.isAbsolute := by
  have hsep : name.toList.head? ≠ some '/' := fun hh => h.2.2.2 (List.mem_of_mem_head? hh)
  have hname : (name.toList.head? == some '/') = false := by simpa using hsep
  have hne : name.toList ≠ [] := by simpa using h.1
  rw [join, if_neg hsep]
  cases hp : p.text.toList with
  | nil => simp [isAbsolute, hp, hname]
  | cons c cs => split <;> simp [isAbsolute, hp]

theorem text_join_ne (p : Path) (h : IsName name) : (p.join name).text ≠ "" := by
  have hne : name.toList ≠ [] := by simpa using h.1
  have hsep : name.toList.head? ≠ some '/' := fun hh => h.2.2.2 (List.mem_of_mem_head? hh)
  rw [join, if_neg hsep, ne_eq, ← String.toList_inj]
  split <;> simp [hne]

theorem isForFolder_join (p : Path) (h : IsName name) : (p.join name).isForFolder = false := by
  have hne : name.toList ≠ [] := by simpa using h.1
  have hsep : name.toList.head? ≠ some '/' := fun hh => h.2.2.2 (List.mem_of_mem_head? hh)
  have hlast : name.toList.getLast? ≠ some '/' := fun hl => h.2.2.2 (List.mem_of_getLast? hl)
  rw [join, if_neg hsep, isForFolder, beq_eq_false_iff_ne]
  obtain ⟨c, cs, hname⟩ := List.exists_cons_of_ne_nil hne
  split <;> simpa [hname, List.getLast?_append, List.getLast?_cons_cons] using hlast

/-- The text of a path begins that of a path joined to it. -/
theorem exists_text_join (p : Path) (name : String) (h : IsName name) :
    ∃ rest, (p.join name).text = p.text ++ rest := by
  have hsep : name.toList.head? ≠ some '/' := fun hh => h.2.2.2 (List.mem_of_mem_head? hh)
  rw [join, if_neg hsep]
  split
  · exact ⟨name, rfl⟩
  · exact ⟨"/" ++ name, String.append_assoc ..⟩

theorem badPath?_of_join (h : IsName name) (hok : Disk.badPath? (p.join name) = none) :
    Disk.badPath? p = none := by
  obtain ⟨rest, hrest⟩ := exists_text_join p name h
  rw [Disk.badPath?, hrest] at hok
  rw [Disk.badPath?]
  split at hok
  · cases hok
  · rename_i hnul
    split at hok
    · cases hok
    · rename_i hlen
      rw [String.toList_append, List.mem_append, not_or] at hnul
      rw [String.utf8ByteSize_append] at hlen
      rw [if_neg hnul.1, if_neg (by omega)]

/-- A path joined to a folder is below it. -/
theorem below_join {root : Path} (h : IsName name)
    (hlen : name.utf8ByteSize ≤ Tree.maxNameLength)
    (hok : Disk.badPath? (root.join name) = none) : Below root (root.join name) [name] where
  parts_eq := parts_join root h
  isAbsolute_eq := isAbsolute_join root h
  isName := by simpa using h
  isForFolder_eq := isForFolder_join root h
  text_ne := text_join_ne root h
  name_le := by simpa using hlen
  path_ok := hok

/-- A path joined to one below a folder is below it, too. -/
theorem Below.join {root : Path} {names : List String} (hp : Below root p names) (h : IsName name)
    (hlen : name.utf8ByteSize ≤ Tree.maxNameLength)
    (hok : Disk.badPath? (p.join name) = none) : Below root (p.join name) (names ++ [name]) where
  parts_eq := by rw [parts_join p h, hp.parts_eq, List.append_assoc]
  isAbsolute_eq := (isAbsolute_join p h).trans hp.isAbsolute_eq
  isName := by
    intro n hn
    rcases List.mem_append.1 hn with hn | hn
    · exact hp.isName n hn
    · exact List.mem_singleton.1 hn ▸ h
  isForFolder_eq := isForFolder_join p h
  text_ne := text_join_ne p h
  name_le := by
    intro n hn
    rcases List.mem_append.1 hn with hn | hn
    · exact hp.name_le n hn
    · exact List.mem_singleton.1 hn ▸ hlen
  path_ok := hok

end Path

namespace Disk

variable {d d' : Disk} {place : Location} {above parts names more : List String} {root p : Path}
  {name : String}

/-- Indicates a location in the folder at `place`, at any depth. -/
def IsIn (place q : Location) : Prop :=
  ∃ name rest, q = place ++ name :: rest

/-- Indicates that parts lead to the folder at `place`, and not through anything that is in it. -/
def Route (d : Disk) (place : Location) : (above : List String) → (parts : List String) → Prop
  | above, [] => above.reverse = place ∧ d.IsFolderAt place
  | above, part :: parts =>
    d.IsFolderAt above.reverse ∧ ¬ IsIn place above.reverse ∧
      if part = "." then d.Route place above parts
      else if part = ".." then d.Route place above.tail parts
      else part.utf8ByteSize ≤ Tree.maxNameLength ∧ d.Route place (part :: above) parts

theorem isFolderAt_of_route (h : d.Route place above parts) : d.IsFolderAt place := by
  induction parts generalizing above with
  | nil => exact h.2
  | cons part parts ih =>
    obtain ⟨-, -, h⟩ := h
    split at h
    · exact ih h
    · split at h
      · exact ih h
      · exact ih h.2

/-- A walk takes the route, and goes on from there. -/
theorem walk_of_route (h : d.Route place above parts) (more : List String) :
    d.walk above (d.get? above.reverse) (parts ++ more) =
      d.walk place.reverse (d.get? place) more := by
  induction parts generalizing above with
  | nil =>
    obtain ⟨rfl, -⟩ := h
    rw [List.nil_append, List.reverse_reverse]
  | cons part parts ih =>
    obtain ⟨hfolder, -, h⟩ := h
    obtain ⟨entries, hentries⟩ := hfolder.exists_entries
    rw [List.cons_append, hentries, walk]
    split at h
    · rename_i hpart
      rw [if_pos hpart, ← hentries, ih h]
    · rename_i hpart
      rw [if_neg hpart]
      split at h
      · rename_i hup
        rw [if_pos hup, ih h]
      · rename_i hup
        obtain ⟨hlen, h⟩ := h
        have hchild : entries.get? part = d.get? (part :: above).reverse := by
          rw [List.reverse_cons, get?_append, hentries]
          rfl
        rw [if_neg hup, if_neg (Nat.not_lt.2 hlen), hchild, ih h]

/-- A walk that ends at an empty folder has taken a route. -/
theorem route_of_walk (h : d.walk above (d.get? above.reverse) parts =
    .ok (place, some (.folder {}))) : d.Route place above parts := by
  have hempty : d.get? place = some (.folder {}) := walk_eq_get? rfl h
  have hplace : d.IsFolderAt place := by rw [IsFolderAt, hempty]; trivial
  have hin : ∀ q, IsIn place q → d.get? q = none := by
    intro q hq
    obtain ⟨name, rest, rfl⟩ := hq
    rw [get?_append, hempty]
    exact Tree.get?_none rest
  induction parts generalizing above with
  | nil =>
    rw [walk, Except.ok.injEq, Prod.mk.injEq] at h
    exact ⟨h.1, hplace⟩
  | cons part parts ih =>
    cases hhere : d.get? above.reverse with
    | none => rw [hhere] at h; cases h
    | some t =>
      cases t with
      | file n => rw [hhere] at h; cases h
      | folder entries =>
        have hnot : ¬ IsIn place above.reverse := fun hq => by
          rw [hin _ hq] at hhere
          cases hhere
        refine ⟨by rw [IsFolderAt, hhere]; trivial, hnot, ?_⟩
        rw [hhere, walk] at h
        split at h
        · rename_i hpart
          rw [if_pos hpart]
          exact ih (hhere ▸ h)
        · rename_i hpart
          rw [if_neg hpart]
          split at h
          · rename_i hup
            rw [if_pos hup]
            exact ih h
          · rename_i hup
            rw [if_neg hup]
            split at h
            · cases h
            · rename_i hlen
              refine ⟨Nat.not_lt.1 hlen, ih ?_⟩
              rwa [List.reverse_cons, get?_append, hhere]

/-- A route stays if the folders stay that do not lie in the one where it ends. -/
theorem Route.congr (h : d.Route place above parts)
    (hstay : ∀ q, ¬ IsIn place q → d.IsFolderAt q → d'.IsFolderAt q) :
    d'.Route place above parts := by
  have hplace : ¬ IsIn place place := by
    intro hin
    obtain ⟨name, rest, heq⟩ := hin
    simpa using congrArg List.length heq
  induction parts generalizing above with
  | nil => exact ⟨h.1, hstay place hplace h.2⟩
  | cons part parts ih =>
    obtain ⟨hfolder, hnot, h⟩ := h
    refine ⟨hstay _ hnot hfolder, hnot, ?_⟩
    split at h
    · rename_i hpart
      rw [if_pos hpart]
      exact ih h
    · rename_i hpart
      rw [if_neg hpart]
      split at h
      · rename_i hup
        rw [if_pos hup]
        exact ih h
      · rename_i hup
        rw [if_neg hup]
        exact ⟨h.1, ih h.2⟩

theorem name_le_of_route (h : d.Route place above parts)
    (habove : ∀ n ∈ above, n.utf8ByteSize ≤ Tree.maxNameLength) :
    ∀ n ∈ place, n.utf8ByteSize ≤ Tree.maxNameLength := by
  induction parts generalizing above with
  | nil =>
    obtain ⟨rfl, -⟩ := h
    simpa using habove
  | cons part parts ih =>
    obtain ⟨-, -, h⟩ := h
    split at h
    · exact ih h habove
    · split at h
      · exact ih h fun n hn => habove n (List.mem_of_mem_tail hn)
      · refine ih h.2 fun n hn => ?_
        rcases List.mem_cons.1 hn with rfl | hn
        · exact h.1
        · exact habove n hn

/-- Folders on a route are there, so that making folders on it begins where it ends. -/
theorem makeFolders_of_route (h : d.Route place above parts)
    (habove : ∀ n ∈ above, n.utf8ByteSize ≤ Tree.maxNameLength) (more : List String) :
    makeFolders d.root above (parts.filter (· ≠ ".") ++ more) =
      makeFolders d.root place.reverse more := by
  induction parts generalizing above with
  | nil =>
    obtain ⟨rfl, -⟩ := h
    rw [List.reverse_reverse]
    rfl
  | cons part parts ih =>
    obtain ⟨hfolder, -, h⟩ := h
    split at h
    · rename_i hpart
      rw [List.filter_cons_of_neg (by simpa using hpart), ih h habove]
    · rename_i hpart
      rw [List.filter_cons_of_pos (by simpa using hpart), List.cons_append, makeFolders]
      split at h
      · rename_i hup
        have hthere := Tree.makeFolders_of_isFolder hfolder
          (fun n hn => habove n (List.mem_reverse.1 hn))
        rw [if_pos hup, hthere]
        exact ih h fun n hn => habove n (List.mem_of_mem_tail hn)
      · rename_i hup
        rw [if_neg hup]
        refine ih h.2 fun n hn => ?_
        rcases List.mem_cons.1 hn with rfl | hn
        · exact h.1
        · exact habove n hn

/-- Making folders on a route, or on the first part of it, changes nothing. -/
theorem makeFolders_prefix_of_route (h : d.Route place above parts)
    (habove : ∀ n ∈ above, n.utf8ByteSize ≤ Tree.maxNameLength)
    (hpre : names <+: parts.filter (· ≠ ".")) : makeFolders d.root above names = (.ok (), d.root) := by
  induction parts generalizing above names with
  | nil =>
    obtain ⟨hplace, hfolder⟩ := h
    rw [List.prefix_nil.1 hpre, makeFolders]
    exact Tree.makeFolders_of_isFolder (hplace ▸ hfolder) fun n hn =>
      habove n (List.mem_reverse.1 hn)
  | cons part parts ih =>
    obtain ⟨hfolder, -, h⟩ := h
    have hthere := Tree.makeFolders_of_isFolder hfolder fun n hn => habove n (List.mem_reverse.1 hn)
    split at h
    · rename_i hpart
      rw [List.filter_cons_of_neg (by simpa using hpart)] at hpre
      exact ih h habove hpre
    · rename_i hpart
      rw [List.filter_cons_of_pos (by simpa using hpart)] at hpre
      cases names with
      | nil => exact hthere
      | cons name names =>
        obtain ⟨hname, hpre⟩ := List.cons_prefix_cons.1 hpre
        rw [hname, makeFolders]
        split at h
        · rename_i hup
          rw [if_pos hup, hthere]
          exact ih h (fun n hn => habove n (List.mem_of_mem_tail hn)) hpre
        · rename_i hup
          rw [if_neg hup]
          refine ih h.2 (fun n hn => ?_) hpre
          rcases List.mem_cons.1 hn with hn | hn
          · exact hn ▸ h.1
          · exact habove n hn

/-! ## Disks on which a folder is found -/

/-- Indicates a disk on which a path leads to the folder at `place`, and calls fail only for reasons
in the tree. -/
structure Rooted (d : Disk) (root : Path) (place : Location) : Prop where
  sound : d.Sound
  route : d.Route place (d.start root).reverse root.parts
  name_le : ∀ n ∈ d.start root, n.utf8ByteSize ≤ Tree.maxNameLength

theorem Rooted.isFolderAt (h : d.Rooted root place) : d.IsFolderAt place :=
  isFolderAt_of_route h.route

theorem start_of_below (h : Path.Below root p names) (d : Disk) : d.start p = d.start root := by
  rw [start, start, h.isAbsolute_eq]

/-- A name leads from a folder to what has the name in it. -/
theorem walk_cons_of_isName (h : d.IsFolderAt place) (hname : Path.IsName name)
    (hlen : name.utf8ByteSize ≤ Tree.maxNameLength) (more : List String) :
    d.walk place.reverse (d.get? place) (name :: more) =
      d.walk (place ++ [name]).reverse (d.get? (place ++ [name])) more := by
  obtain ⟨entries, hentries⟩ := h.exists_entries
  have hchild : entries.get? name = d.get? (place ++ [name]) := by
    rw [get?_append, hentries]
    rfl
  rw [hentries, walk, if_neg hname.2.1, if_neg hname.2.2.1, if_neg (Nat.not_lt.2 hlen), hchild,
    List.reverse_append]
  rfl

/-- Names that lead to a folder can be walked. -/
theorem walk_names (h : d.IsFolderAt (place ++ names)) (hnames : ∀ n ∈ names, Path.IsName n)
    (hlen : ∀ n ∈ names, n.utf8ByteSize ≤ Tree.maxNameLength) (more : List String) :
    d.walk place.reverse (d.get? place) (names ++ more) =
      d.walk (place ++ names).reverse (d.get? (place ++ names)) more := by
  induction names generalizing place with
  | nil => rw [List.append_nil, List.nil_append]
  | cons n names ih =>
    have hassoc : place ++ n :: names = place ++ [n] ++ names := by simp
    rw [List.cons_append, walk_cons_of_isName (isFolderAt_of_append h) (hnames n (by simp))
      (hlen n (by simp)), hassoc]
    exact ih (hassoc ▸ h) (fun m hm => hnames m (List.mem_cons_of_mem _ hm))
      fun m hm => hlen m (List.mem_cons_of_mem _ hm)

/-- A path below the folder leads where its last name does, if the names before lead to a folder. -/
theorem locate_eq_walk (h : d.Rooted root place) (hp : Path.Below root p (names ++ name :: more))
    (hfolder : d.IsFolderAt (place ++ names)) :
    d.locate p = d.walk (place ++ names ++ [name]).reverse (d.get? (place ++ names ++ [name]))
      more := by
  have hroute := walk_of_route h.route (names ++ name :: more)
  rw [List.reverse_reverse] at hroute
  rw [locate, if_neg hp.text_ne, walkParts, hp.path_ok]
  dsimp only
  rw [start_of_below hp, hp.parts_eq, hroute,
    walk_names hfolder (fun n hn => hp.isName n (by simp [hn]))
      (fun n hn => hp.name_le n (by simp [hn])),
    walk_cons_of_isName hfolder (hp.isName name (by simp)) (hp.name_le name (by simp))]

theorem locate_of_below (names : List String) (h : d.Rooted root place)
    (hp : Path.Below root p (names ++ [name]))
    (hfolder : d.IsFolderAt (place ++ names)) :
    d.locate p = .ok (place ++ names ++ [name], d.get? (place ++ names ++ [name])) := by
  rw [locate_eq_walk h hp hfolder, walk, List.reverse_reverse]

/-- A path through something that is missing leads nowhere. -/
theorem locate_of_none {last : String} (names : List String) (h : d.Rooted root place)
    (hp : Path.Below root p (names ++ [name, last])) (hfolder : d.IsFolderAt (place ++ names))
    (hnone : d.get? (place ++ names ++ [name]) = none) : d.locate p = .error .notFound := by
  rw [locate_eq_walk h hp hfolder, hnone, walk]

theorem lookup_of_below (names : List String) (h : d.Rooted root place)
    (hp : Path.Below root p (names ++ [name]))
    (hfolder : d.IsFolderAt (place ++ names)) : d.lookup p =
      match d.get? (place ++ names ++ [name]) with
      | none => .error .notFound
      | some t => .ok (place ++ names ++ [name], t) := by
  rw [lookup, locate_of_below _ h hp hfolder]
  cases d.get? (place ++ names ++ [name]) with
  | none => rfl
  | some t =>
    cases t with
    | file n => simp [hp.isForFolder_eq]
    | folder entries => rfl

end Disk

end StatefulPages
