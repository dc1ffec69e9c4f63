import StatefulPages.Proofs.Disk.Route

/-!
# Calls on a sound disk

What each call does on paths below a folder that is found (`Disk.Rooted`), when no fault intervenes.
A call that changes the tree puts something at one place; all calls are counted (`Disk.tick`).

* `slice_write_self`, `slice_write_of_apart`: bytes that were written are read back, and what lies
  beside them stays.
-/

namespace StatefulPages

namespace Content

variable {c : Content} {offset : Nat} {data : List UInt8}

theorem byte_write (c : Content) (offset : Nat) (data : List UInt8) (i : Nat) :
    (c.write offset data).byte i =
      if offset ≤ i then (data[i - offset]?).getD (c.byte i) else c.byte i := by
  rw [write]
  split
  · rename_i hempty
    simp [hempty]
  · simp [overlay]

/-- Bytes that were written are read back. -/
theorem slice_write_self (c : Content) (offset : Nat) (data : List UInt8) :
    (c.write offset data).slice offset data.length = data := by
  refine List.ext_getElem (by simp [slice]) fun i hi hi' => ?_
  simp only [slice, List.getElem_map, List.getElem_range', Nat.one_mul, byte_write,
    Nat.le_add_right, if_true, Nat.add_sub_cancel_left, List.getElem?_eq_getElem hi',
    Option.getD_some]

/-- Bytes beside those that are written stay. -/
theorem slice_write_of_apart {start n : Nat}
    (h : ∀ i, start ≤ i → i < start + n → ¬ (offset ≤ i ∧ i < offset + data.length)) :
    (c.write offset data).slice start n = c.slice start n := by
  refine List.map_congr_left fun i hi => ?_
  obtain ⟨hlo, hhi⟩ := List.mem_range'_1.1 hi
  have hnot := h i hlo hhi
  rw [byte_write]
  split
  · rename_i hle
    rw [List.getElem?_eq_none (by omega), Option.getD_none]
  · rfl

theorem size_write (c : Content) (offset : Nat) (h : data ≠ []) :
    (c.write offset data).size = max c.size (offset + data.length) := by
  rw [write, if_neg h]

@[simp] theorem length_slice (c : Content) (offset n : Nat) : (c.slice offset n).length = n := by
  simp [slice]

theorem take_slice (c : Content) (offset size n : Nat) :
    (c.slice offset size).take n = c.slice offset (min n size) :=
  List.ext_getElem (by simp) fun i hi hi' => by simp [slice]

theorem toList_ofList (h : data ≠ []) : (ofList data).toList = data := by
  have hsize : (ofList data).size = data.length := by
    rw [ofList, size_write _ _ h]
    simp [empty]
  rw [toList, hsize]
  exact slice_write_self _ 0 data

end Content

namespace Disk

variable {d : Disk} {place above below names : Location} {root p : Path} {name last : String}
  {t : Option Tree} {n offset size : Nat} {data : List UInt8} {e : IoError}

/-- The disk after a call that changes nothing else. -/
def tick (d : Disk) : Disk :=
  { d with calls := d.calls + 1 }

@[simp] theorem get?_tick (d : Disk) (q : Location) : d.tick.get? q = d.get? q := rfl

@[simp] theorem contents_tick (d : Disk) : d.tick.contents = d.contents := rfl

/-- Where a walk leads does not depend on how many calls have been made. -/
theorem walk_calls (d : Disk) (calls : Nat) (above : List String) (here : Option Tree)
    (parts : List String) : walk { d with calls } above here parts = d.walk above here parts := by
  have hget : ∀ q, get? { d with calls } q = d.get? q := fun _ => rfl
  induction parts generalizing above here with
  | nil =>
    rw [walk, walk]
  | cons part parts ih =>
    cases here with
    | none => rw [walk, walk]
    | some t =>
      cases t with
      | file n => rw [walk, walk]
      | folder entries => rw [walk, walk, ih, ih, ih, hget]

theorem locate_calls (d : Disk) (calls : Nat) (p : Path) : locate { d with calls } p = d.locate p := by
  rw [locate, locate, walkParts, walkParts, walk_calls]
  rfl

theorem lookup_calls (d : Disk) (calls : Nat) (p : Path) : lookup { d with calls } p = d.lookup p := by
  rw [lookup, lookup, locate_calls]

theorem locate_tick (d : Disk) (p : Path) : d.tick.locate p = d.locate p :=
  d.locate_calls (d.calls + 1) p

theorem lookup_tick (d : Disk) (p : Path) : d.tick.lookup p = d.lookup p :=
  d.lookup_calls (d.calls + 1) p

theorem call_of_sound {α : Type} (h : d.Sound) (run : Disk → Except IoError α × Disk) :
    d.call run = run d.tick := by
  rw [call, h.1]
  rfl

theorem not_exceeds (h : d.Sound) (offset : Nat) : d.exceeds offset = false := by
  rw [exceeds, h.2]
  rfl

theorem lookup_of_locate_error (h : d.locate p = .error e) : d.lookup p = .error e := by
  rw [lookup, h]

theorem walk_of_locate {r : Location × Option Tree} (h : d.locate p = .ok r) :
    d.walk (d.start p).reverse (d.get? (d.start p)) p.parts = .ok r := by
  rw [locate] at h
  split at h
  · cases h
  · rw [walkParts] at h
    split at h
    · cases h
    · exact h

theorem walk_of_lookup {found : Tree} (h : d.lookup p = .ok (place, found)) :
    d.walk (d.start p).reverse (d.get? (d.start p)) p.parts = .ok (place, some found) := by
  have hlocate : d.locate p = .ok (place, some found) := by
    rw [lookup] at h
    split at h
    · cases h
    · cases h
    · rename_i hlocate
      split at h <;> cases h
      exact hlocate
    · rename_i hlocate
      cases h
      exact hlocate
  exact walk_of_locate hlocate

/-- What is looked up is what is where the path leads to. -/
theorem get?_of_lookup {found : Tree} (h : d.lookup p = .ok (place, found)) :
    d.get? place = some found :=
  walk_eq_get? (congrArg d.get? (List.reverse_reverse _)) (walk_of_lookup h)

/-! ## What keeps a folder found -/

theorem Rooted.congr {d' : Disk} (h : d.Rooted root place) (hsound : d'.Sound)
    (hhome : d'.home = d.home)
    (hstay : ∀ q, ¬ IsIn place q → d.IsFolderAt q → d'.IsFolderAt q) : d'.Rooted root place := by
  have hstart : d'.start root = d.start root := by rw [start, start, hhome]
  exact ⟨hsound, hstart ▸ h.route.congr hstay, hstart ▸ h.name_le⟩

theorem Rooted.tick (h : d.Rooted root place) : d.tick.Rooted root place :=
  h.congr h.sound rfl fun _ _ hq => hq

theorem Rooted.withContents (h : d.Rooted root place) (contents : Heap Content) :
    { d with contents }.Rooted root place :=
  h.congr h.sound rfl fun _ _ hq => hq

/-- Putting something into a folder keeps all folders that do not lie in it. -/
theorem isFolderAt_put_of_not_isIn {q : Location} (habove : d.IsFolderAt above)
    (heq : above ++ [last] = place ++ name :: below) (hq : ¬ IsIn place q) (h : d.IsFolderAt q)
    (t : Option Tree) : (d.put (above ++ [last]) t).IsFolderAt q := by
  rcases prefix_or_differ q (place ++ name :: below) with hpre | hpre | hdiff
  · obtain ⟨rest, hrest⟩ := hpre
    cases rest with
    | nil => exact absurd ⟨name, below, by rw [← hrest, List.append_nil]⟩ hq
    | cons x rest =>
      rw [heq, ← hrest]
      exact isFolderAt_put h x rest t
  · obtain ⟨rest, hrest⟩ := hpre
    exact absurd ⟨name, below ++ rest, by rw [← hrest]; simp⟩ hq
  · obtain ⟨stem, a, b, rest, rest', hne, hqa, hplace⟩ := hdiff
    rw [IsFolderAt, hqa, get?_put_of_ne habove (heq.trans hplace) hne]
    exact hqa ▸ h

theorem Rooted.put (h : d.Rooted root place) (habove : d.IsFolderAt above)
    (heq : above ++ [last] = place ++ name :: below) (t : Option Tree) :
    (d.put (above ++ [last]) t).Rooted root place :=
  h.congr h.sound rfl fun _ hq hfolder => isFolderAt_put_of_not_isIn habove heq hq hfolder t

/-! ## Folders -/

theorem names_of_below (hp : Path.Below root p names) : p.names = root.names ++ names := by
  rw [Path.names, hp.parts_eq, List.filter_append, Path.names,
    List.filter_eq_self.2 fun n hn => decide_eq_true (hp.isName n hn).2.1]

theorem createFolders_eq (h : d.Rooted root place) (hp : Path.Below root p [name]) :
    d.createFolders p = (match d.root.makeFolders (place ++ [name]) with
      | (.ok _, root) => (.ok (), { d.tick with root })
      | (.error e, root) => (.error e, { d.tick with root })) := by
  have hname := hp.isName name (by simp)
  have hlast : (p.parts.getLast? == some ".") = false := by
    rw [hp.parts_eq]
    simpa using hname.2.1
  have hmake : makeFolders d.tick.root (d.tick.start p).reverse p.names =
      d.root.makeFolders (place ++ [name]) := by
    rw [start_of_below hp, names_of_below hp]
    show makeFolders d.root (d.start root).reverse (root.parts.filter (· ≠ ".") ++ [name]) = _
    rw [makeFolders_of_route h.route (fun n hn => h.name_le n (List.mem_reverse.1 hn)), makeFolders,
      if_neg hname.2.2.1, makeFolders, List.reverse_cons, List.reverse_reverse]
  rw [createFolders, call_of_sound h.sound, hp.path_ok]
  dsimp only
  rw [hlast]
  simp only [Bool.false_eq_true, ↓reduceIte, hmake, Bool.false_and]
  generalize d.root.makeFolders (place ++ [name]) = made
  obtain ⟨result, tree⟩ := made
  cases result with
  | error e => rfl
  | ok _ => rfl

/-- A folder that is missing is made. -/
theorem createFolders_of_none (h : d.Rooted root place) (hp : Path.Below root p [name])
    (hnone : d.get? (place ++ [name]) = none) :
    d.createFolders p = (.ok (), d.tick.put (place ++ [name]) (some .empty)) := by
  obtain ⟨entries, hentries⟩ := h.isFolderAt.exists_entries
  have hchild : entries.get? name = none := by
    rw [get?_append, hentries] at hnone
    exact hnone
  have hlen : ∀ n ∈ place ++ [name], n.utf8ByteSize ≤ Tree.maxNameLength := by
    intro n hn
    rcases List.mem_append.1 hn with hn | hn
    · exact name_le_of_route h.route (fun m hm => h.name_le m (List.mem_reverse.1 hm)) n hn
    · exact hp.name_le n hn
  rw [createFolders_eq h hp, Tree.makeFolders_append hentries hchild hlen]
  rfl

theorem name_le_of_makeFolders {tree : Tree} {reversed : List String}
    (h : (makeFolders tree reversed names).1 = .ok ()) :
    ∀ n ∈ reversed, n.utf8ByteSize ≤ Tree.maxNameLength := by
  induction names generalizing tree reversed with
  | nil =>
    intro n hn
    exact Tree.name_le_of_makeFolders h n (List.mem_reverse.2 hn)
  | cons name names ih =>
    rw [makeFolders] at h
    split at h
    · split at h
      · cases h
      · rename_i hmade
        intro n hn
        exact Tree.name_le_of_makeFolders (congrArg Prod.fst hmade) n (List.mem_reverse.2 hn)
    · exact fun n hn => ih h n (List.mem_cons_of_mem name hn)

/-- A disk is rooted at a folder that was made, if nothing is in it. -/
theorem rooted_of_createFolders (h : d.Sound) (hmade : (d.createFolders p).1 = .ok ())
    (hempty : (d.createFolders p).2.lookup p = .ok (place, .folder {})) :
    (d.createFolders p).2.Rooted p place := by
  obtain ⟨tree, names, hdisk, hmakes⟩ : ∃ tree names,
      (d.createFolders p).2 = { d.tick with root := tree } ∧
      (makeFolders d.root (d.start p).reverse names).1 = .ok () := by
    rw [createFolders, call_of_sound h] at hmade ⊢
    dsimp only at hmade ⊢
    split at hmade
    · cases hmade
    · split at hmade
      · cases hmade
      · rename_i hresult
        exact ⟨_, _, rfl, hresult⟩
  rw [hdisk] at hempty ⊢
  refine ⟨h, ?_, fun n hn => name_le_of_makeFolders hmakes n (List.mem_reverse.2 hn)⟩
  refine route_of_walk ?_
  rw [List.reverse_reverse]
  exact walk_of_lookup hempty

/-- A folder that is found is not made again. -/
theorem createFolders_of_rooted (h : d.Rooted root place) (hok : badPath? root = none) :
    d.createFolders root = (.ok (), d.tick) := by
  have habove : ∀ n ∈ (d.start root).reverse, n.utf8ByteSize ≤ Tree.maxNameLength := fun n hn =>
    h.name_le n (List.mem_reverse.1 hn)
  have hmake : ∀ names, names <+: root.parts.filter (· ≠ ".") →
      makeFolders d.tick.root (d.tick.start root).reverse names = (.ok (), d.tick.root) := fun _ hpre =>
    makeFolders_prefix_of_route h.tick.route habove hpre
  rw [createFolders, call_of_sound h.sound, hok]
  dsimp only
  cases hdotted : root.parts.getLast? == some "." with
  | false =>
    simp only [Bool.false_eq_true, ↓reduceIte, hmake root.names (List.prefix_refl _), Bool.false_and]
  | true =>
    -- A path that ends in a dot says that the folder is there, as it is.
    have htext : root.text ≠ "" := by
      intro hempty
      rw [Path.parts, hempty] at hdotted
      exact absurd hdotted (by decide)
    obtain ⟨entries, hentries⟩ := h.isFolderAt.exists_entries
    have hwalk := walk_of_route h.route []
    rw [List.append_nil, List.reverse_reverse, walk, List.reverse_reverse, hentries] at hwalk
    have hlookup : d.lookup root = .ok (place, .folder entries) := by
      rw [lookup, locate, if_neg htext, walkParts, hok]
      dsimp only
      rw [hwalk]
    have hfolder : d.tick.isFolder root = true := by
      rw [isFolder, lookup_tick, hlookup]
    have hsame : ({ d.tick with root := d.tick.root } : Disk) = d.tick := rfl
    simp only [↓reduceIte, hmake _ (List.dropLast_prefix root.names), hsame, hfolder, Bool.not_true,
      Bool.and_false, Bool.false_eq_true]

/-- Where a folder has nothing under a name, nothing is there. -/
theorem isThere_of_none (h : d.Rooted root place) (hname : Path.IsName name)
    (hlen : name.utf8ByteSize ≤ Tree.maxNameLength) (hnone : d.get? (place ++ [name]) = none) :
    d.isThere (root.join name) = false := by
  obtain ⟨e, he⟩ : ∃ e, d.lookup (root.join name) = .error e := by
    cases hbad : badPath? (root.join name) with
    | some e =>
      refine ⟨e, lookup_of_locate_error ?_⟩
      rw [locate, if_neg (Path.text_join_ne root hname), walkParts, hbad]
    | none =>
      have hlook := lookup_of_below [] h (Path.below_join hname hlen hbad)
        (by rw [List.append_nil]; exact h.isFolderAt)
      rw [List.append_nil, hnone] at hlook
      exact ⟨_, hlook⟩
  rw [isThere, he]
  rfl

/-! ## Files -/

/-- What opening a file does when the call is made. -/
theorem openFile_eq (hfault : d.faults d.calls = none) (hp : p.isForFolder = false) (create : Bool) :
    d.openFile p create = match d.locate p with
      | .error e => (.error e, d.tick)
      | .ok (_, some (.folder _)) => (.error .isAFolder, d.tick)
      | .ok (_, some (.file n)) => (.ok n, d.tick)
      | .ok (place, none) =>
        if create then (.ok d.contents.next, (d.tick.addFile place).2) else (.error .notFound, d.tick) := by
  rw [openFile, call, hfault]
  simp only [hp, Bool.and_false, Bool.false_eq_true, ↓reduceIte]
  rw [← locate_tick d p]
  rfl

theorem openFile_of_file (names : List String) (h : d.Rooted root place)
    (hp : Path.Below root p (names ++ [name]))
    (hfolder : d.IsFolderAt (place ++ names))
    (hfile : d.get? (place ++ names ++ [name]) = some (.file n)) (create : Bool) :
    d.openFile p create = (.ok n, d.tick) := by
  rw [openFile_eq (h.sound.1 _) hp.isForFolder_eq, locate_of_below _ h hp hfolder, hfile]

/-- A path leads to a folder if it is one that is where the path leads. -/
theorem isFolder_of_below (h : d.Rooted root place) (hp : Path.Below root p [name]) :
    d.isFolder p = true ↔ d.IsFolderAt (place ++ [name]) := by
  have hlook := lookup_of_below [] h hp (by rw [List.append_nil]; exact h.isFolderAt)
  rw [List.append_nil] at hlook
  rw [isFolder, hlook, IsFolderAt]
  cases d.get? (place ++ [name]) with
  | none => simp [Tree.IsFolder]
  | some t =>
    cases t with
    | file n => simp [Tree.IsFolder]
    | folder entries => simp [Tree.IsFolder]

theorem exists_lookup_of_isFolder (h : d.isFolder p = true) :
    ∃ found entries, d.lookup p = .ok (found, .folder entries) := by
  rw [isFolder] at h
  split at h
  · exact ⟨_, _, by assumption⟩
  · cases h

theorem isThere_of_isFolder (h : d.isFolder p = true) : d.isThere p = true := by
  obtain ⟨found, entries, hlookup⟩ := exists_lookup_of_isFolder h
  rw [isThere, hlookup]
  rfl

theorem isFolder_tick (d : Disk) (p : Path) : d.tick.isFolder p = d.isFolder p := by
  rw [isFolder, lookup_tick, isFolder]

/-- A folder is not opened like a file. -/
theorem writeAll_of_isFolder (h : d.Rooted root place) (hp : Path.Below root p [name])
    (hfolder : d.isFolder p = true) (data : List UInt8) :
    d.writeAll p data = (.error .isAFolder, d.tick) := by
  have hplace : place ++ [] = place := List.append_nil place
  have hthere := (isFolder_of_below h hp).1 hfolder
  obtain ⟨entries, hentries⟩ := hthere.exists_entries
  have hlocate := locate_of_below [] h hp (hplace.symm ▸ h.isFolderAt)
  rw [hplace, hentries] at hlocate
  have hopen : d.openFile p true = (.error .isAFolder, d.tick) := by
    rw [openFile_eq (h.sound.1 _) hp.isForFolder_eq, hlocate]
  rw [writeAll, hopen]

theorem readAll_of_isFolder (h : d.Sound) (hfolder : d.isFolder p = true) :
    d.readAll p = (.error .isAFolder, d.tick) := by
  obtain ⟨found, entries, hlookup⟩ := exists_lookup_of_isFolder hfolder
  rw [readAll, call_of_sound h, lookup_tick, hlookup]

/-- A file that is missing is made for writing. -/
theorem openFile_of_none (names : List String) (h : d.Rooted root place)
    (hp : Path.Below root p (names ++ [name]))
    (hfolder : d.IsFolderAt (place ++ names))
    (hnone : d.get? (place ++ names ++ [name]) = none) :
    d.openFile p true =
      (.ok d.contents.next, (d.tick.addFile (place ++ names ++ [name])).2) := by
  rw [openFile_eq (h.sound.1 _) hp.isForFolder_eq, locate_of_below _ h hp hfolder, hnone]
  rfl

theorem lookup_of_file (names : List String) (h : d.Rooted root place)
    (hp : Path.Below root p (names ++ [name])) (hfolder : d.IsFolderAt (place ++ names))
    (hfile : d.get? (place ++ names ++ [name]) = some (.file n)) :
    d.lookup p = .ok (place ++ names ++ [name], .file n) := by
  rw [lookup_of_below names h hp hfolder, hfile]

theorem readAll_of_file (h : d.Sound) {found : Location} (hfile : d.lookup p = .ok (found, .file n)) :
    d.readAll p = (.ok (d.contents.get n).toList, d.tick) := by
  rw [readAll, call_of_sound h, lookup_tick, hfile]
  rfl

theorem deleteFile_of_file (names : List String) (h : d.Rooted root place)
    (hp : Path.Below root p (names ++ [name]))
    (hfolder : d.IsFolderAt (place ++ names))
    (hfile : d.get? (place ++ names ++ [name]) = some (.file n)) :
    d.deleteFile p = (.ok (), d.tick.put (place ++ names ++ [name]) none) := by
  rw [deleteFile, call_of_sound h.sound, lookup_of_below _ h.tick hp hfolder, get?_tick, hfile]

theorem deleteFile_of_error (h : d.Sound) (herror : d.lookup p = .error e) :
    d.deleteFile p = (.error e, d.tick) := by
  rw [deleteFile, call_of_sound h, lookup_tick, herror]

theorem deleteFolder_of_isFolder (h : d.Rooted root place) (hp : Path.Below root p [name])
    (hfolder : d.IsFolderAt (place ++ [name])) :
    d.deleteFolder p = (.ok (), d.tick.put (place ++ [name]) none) := by
  obtain ⟨entries, hentries⟩ := hfolder.exists_entries
  have hlook := lookup_of_below [] h.tick hp (by rw [List.append_nil]; exact h.isFolderAt)
  rw [List.append_nil, get?_tick, hentries] at hlook
  rw [deleteFolder, call_of_sound h.sound, hlook]

theorem deleteFolder_of_error (h : d.Sound) (herror : d.lookup p = .error e) :
    d.deleteFolder p = (.error e, d.tick) := by
  rw [deleteFolder, call_of_sound h, lookup_tick, herror]

/-! ## Bytes -/

theorem writeAt_of_sound (h : d.Sound) (n offset : Nat) (hdata : data ≠ []) :
    d.writeAt n offset data = (.ok (), { d.tick with
      contents := d.contents.set n ((d.contents.get n).write offset data) }) := by
  have hexceeds : ({ d with calls := d.calls + 1 } : Disk).exceeds (offset + data.length) = false :=
    not_exceeds (d := d.tick) h _
  rw [writeAt, if_neg hdata, h.1]
  dsimp only
  rw [hexceeds]
  rfl

theorem readAt_of_noFault (n : Nat) (h : d.faults d.calls = none)
    (hexceeds : d.exceeds (offset + size) = false) (hsize : size ≠ 0)
    (hend : offset + size ≤ (d.contents.get n).size) :
    d.readAt n offset size = (.ok ((d.contents.get n).slice offset size), d.tick) := by
  have hexceeds' : d.tick.exceeds (offset + size) = false := hexceeds
  rw [readAt, if_neg hsize, call, h]
  show (if d.tick.exceeds (offset + size) = true then (Except.error IoError.invalidOffset, d.tick) else
    if offset + size ≤ (d.contents.get n).size then _ else _) = _
  rw [hexceeds', if_neg Bool.false_ne_true, if_pos hend]
  rfl

theorem readAt_of_sound (n offset : Nat) (h : d.Sound) (hsize : size ≠ 0)
    (hend : offset + size ≤ (d.contents.get n).size) :
    d.readAt n offset size = (.ok ((d.contents.get n).slice offset size), d.tick) :=
  readAt_of_noFault n (h.1 _) (not_exceeds h _) hsize hend

end Disk

end StatefulPages
