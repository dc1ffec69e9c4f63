import StatefulPages.Proofs.Storage.StoreSessions

/-!
# Sessions that have ended

Whoever holds a session object may go on using it when the store has removed the session, and when
there is a new session with the same id, whose data file has the same path. An object that has ended
stays so, whatever is done with it, with other objects or with the store, and work on it does nothing
at all. So this work can be left out of any run.

* `moves_apply`: what any operation does to the objects and the sessions (`DiskStore.Moves`);
* `Ended.work`, `Ended.moves`: an object that has ended does nothing, and stays so;
* `removeSession_final`: from the removal of a session on, work on its object makes no difference.
-/

namespace StatefulPages

namespace Session

variable {e : Session} {files : Files}

theorem save_of_unbound (h : e.unbound = true) (page : PageId) (data : List UInt8) (files : Files) :
    e.save page data files = (e, files) := by
  rw [save, if_pos (.inr (.inr h))]

theorem load_of_unbound (h : e.unbound = true) (page : PageId) (files : Files) :
    e.load page files = (none, files) := by
  rw [load, window?, if_pos h]

theorem remove_of_unbound (h : e.unbound = true) (page : PageId) : e.remove page = e := by
  rw [remove, if_pos h]

theorem unbind_of_unbound (h : e.unbound = true) (files : Files) : e.unbind files = (e, files) := by
  rw [unbind, if_pos h]

theorem layout?_of_unbound (h : e.unbound = true) : e.layout? = none := by
  rw [layout?, if_pos h]

theorem unbound_unbind (e : Session) (files : Files) : (e.unbind files).1.unbound = true := by
  rw [unbind]
  split
  · assumption
  · rfl

end Session

namespace DiskStore

/-! ## What can be done -/

/-- What can be done with a session object. -/
inductive Work where
  | save (page : PageId) (data : List UInt8)
  | load (page : PageId)
  | remove (page : PageId)
  | unbind
  /-- Asks for the layout of the data file. -/
  | snapshot
  deriving DecidableEq, Repr

/-- What can be done with a store and with the session objects that it has made. -/
inductive Operation where
  | call (c : SessionStore.Call)
  | destroy
  /-- Work on an object, by someone who holds it. -/
  | held (ref : SessionRef) (w : Work)
  deriving DecidableEq, Repr

/-- What comes of an operation, the new state of the store aside. -/
inductive Answer where
  | done
  | page (data : Option (List UInt8))
  | layout (l : Option Layout)
  deriving DecidableEq, Repr

/-- The answer if there is nothing to work on. -/
def Work.nothing : Work → Answer
  | save .. | remove .. | unbind => .done
  | load _ => .page none
  | snapshot => .layout none

/-- Indicates work on a certain object. -/
def Operation.isOn (ref : SessionRef) : Operation → Bool
  | held ref' _ => ref' = ref
  | _ => false

/-- Works on a session object. -/
def work (s : DiskStore) (ref : SessionRef) : Work → Answer × DiskStore
  | .save page data => (.done, s.saveIn ref page data)
  | .load page => (.page (s.loadFrom ref page).1, (s.loadFrom ref page).2)
  | .remove page => (.done, s.removeFrom ref page)
  | .unbind => (.done, s.unbind ref)
  | .snapshot => (.layout (s.objects.get ref).layout?, s)

/-- Carries out an operation. -/
def apply (s : DiskStore) : Operation → Answer × DiskStore
  | .call c => ((SessionStore.call s c).1.elim .done .page, (SessionStore.call s c).2)
  | .destroy => (.done, s.destroy)
  | .held ref w => s.work ref w

/-- The store after several operations. -/
def after (s : DiskStore) (ops : List Operation) : DiskStore :=
  ops.foldl (fun s op => (s.apply op).2) s

/-- Several operations, each with its answer. -/
def trace (s : DiskStore) : List Operation → List (Operation × Answer)
  | [] => []
  | op :: ops => (op, (s.apply op).1) :: trace (s.apply op).2 ops

variable {s s₀ t : DiskStore} {ref : SessionRef} {id : SessionId}

theorem after_cons (s : DiskStore) (op : Operation) (ops : List Operation) :
    s.after (op :: ops) = (s.apply op).2.after ops := rfl

/-! ## What an operation does to the objects -/

/-- What happens to the objects and the sessions of a store. -/
inductive Moves : DiskStore → DiskStore → Prop where
  | files (s : DiskStore) (files : Files) : Moves s { s with files }
  /-- An object is replaced by one that has ended if it had. -/
  | set (s : DiskStore) (ref : SessionRef) (e : Session) (files : Files)
      (he : (s.objects.get ref).unbound = true → e.unbound = true) :
      Moves s { s with objects := s.objects.set ref e, files }
  | add (s : DiskStore) (e : Session) : Moves s (s.addSession e)
  | erase (s : DiskStore) (id : SessionId) : Moves s { s with sessions := s.sessions.erase id }
  | trans {s t u : DiskStore} (first : Moves s t) (second : Moves t u) : Moves s u

theorem moves_saveIn (s : DiskStore) (ref : SessionRef) (page : PageId) (data : List UInt8) :
    Moves s (s.saveIn ref page data) :=
  .set s ref _ _ fun h => (congrArg (fun x => x.1.unbound)
    (Session.save_of_unbound h page data s.files)).trans h

theorem moves_removeFrom (s : DiskStore) (ref : SessionRef) (page : PageId) :
    Moves s (s.removeFrom ref page) :=
  .set s ref _ s.files fun h => (congrArg Session.unbound (Session.remove_of_unbound h page)).trans h

theorem moves_unbind (s : DiskStore) (ref : SessionRef) : Moves s (s.unbind ref) :=
  .set s ref _ _ fun _ => Session.unbound_unbind ..

theorem moves_apply (s : DiskStore) (op : Operation) : Moves s (s.apply op).2 := by
  cases op with
  | call c =>
    cases c with
    | load id page =>
      show Moves s (s.load id page).2
      rw [load]
      split
      · exact .files s _
      · exact .files s s.files
    | store id page data =>
      show Moves s (s.store id page data)
      rw [store, obtain]
      split
      · exact .files s s.files
      · cases s.session? id with
        | some ref => exact moves_saveIn s ref page data
        | none => exact (Moves.add s _).trans (moves_saveIn _ s.objects.next page data)
    | remove id page =>
      show Moves s (s.remove id page)
      rw [remove]
      split
      · exact moves_removeFrom s _ page
      · exact .files s s.files
    | removeSession id =>
      show Moves s (s.removeSession id)
      rw [removeSession]
      split
      · exact (moves_unbind s _).trans (.erase _ id)
      · exact .files s s.files
  | destroy =>
    show Moves s s.destroy
    rw [destroy, saveIndex]
    split
    · exact .files s _
    · split <;> exact .files s _
  | held ref w =>
    cases w with
    | save page data => exact moves_saveIn s ref page data
    | load page => exact .files s _
    | remove page => exact moves_removeFrom s ref page
    | unbind => exact moves_unbind s ref
    | snapshot => exact .files s s.files

theorem moves_after (s : DiskStore) (ops : List Operation) : Moves s (s.after ops) := by
  induction ops generalizing s with
  | nil => exact .files s s.files
  | cons op ops ih => exact (moves_apply s op).trans (ih _)

theorem moves_restore (records : List SessionRecord) (s : DiskStore) : Moves s (restore records s) := by
  induction records generalizing s with
  | nil => exact .files s s.files
  | cons r records ih =>
    rw [restore]
    split
    · exact (Moves.add s _).trans (ih _)
    · exact ih s

/-- Every session keeps an object of its own. -/
theorem Distinct.moves (h : s.Distinct) (hmoves : Moves s t) : t.Distinct := by
  induction hmoves with
  | files s files => exact ⟨h.names_nodup, h.ref_lt, h.id_eq⟩
  | set s ref e files he => exact h.set ref e files
  | add s e => exact h.addSession e
  | erase s id => exact h.erase id
  | trans first second ih ih' => exact ih' (ih h)

/-- A store that has just been started has an object for each session. -/
theorem distinct_of_start {folder : StoreFolder} {budget capacity : Nat} {disk : Disk}
    {objects : Heap Session} (hstart : start folder budget capacity disk objects = .ok s) :
    s.Distinct := by
  rw [start] at hstart
  split at hstart
  · rw [← Except.ok.inj hstart, loadIndex]
    split
    · exact (distinct_of_noSessions _ rfl).moves ((moves_restore _ _).trans (.files _ _))
    · exact distinct_of_noSessions _ rfl
  · cases hstart

/-! ## Objects that have ended -/

/-- Indicates an object whose session has ended. -/
structure Ended (s : DiskStore) (ref : SessionRef) : Prop where
  ref_lt : ref < s.objects.next
  unbound : (s.objects.get ref).unbound = true

/-- Work on an object that has ended does nothing. -/
theorem Ended.work (h : s.Ended ref) (w : Work) : s.work ref w = (w.nothing, s) := by
  cases w with
  | save page data =>
    simp only [DiskStore.work, saveIn, Session.save_of_unbound h.unbound, Heap.set_get]
    rfl
  | load page =>
    simp only [DiskStore.work, loadFrom, Session.load_of_unbound h.unbound]
    rfl
  | remove page =>
    simp only [DiskStore.work, removeFrom, Session.remove_of_unbound h.unbound, Heap.set_get]
    rfl
  | unbind =>
    simp only [DiskStore.work, DiskStore.unbind, Session.unbind_of_unbound h.unbound, Heap.set_get]
    rfl
  | snapshot =>
    simp only [DiskStore.work, Session.layout?_of_unbound h.unbound]
    rfl

/-- An object that has ended stays so, also when others are made or replaced. -/
theorem Ended.moves (h : s.Ended ref) (hmoves : Moves s t) : t.Ended ref := by
  induction hmoves with
  | files s files => exact ⟨h.ref_lt, h.unbound⟩
  | set s other e files he =>
    refine ⟨h.ref_lt, ?_⟩
    show ((s.objects.set other e).get ref).unbound = true
    by_cases heq : ref = other
    · rw [heq, Heap.get_set_self]
      exact he (heq ▸ h.unbound)
    · rw [Heap.get_set_of_ne _ _ heq]
      exact h.unbound
  | add s e =>
    refine ⟨Nat.lt_succ_of_lt h.ref_lt, ?_⟩
    show ((s.objects.add e).get ref).unbound = true
    rw [Heap.get_add_of_lt _ _ h.ref_lt]
    exact h.unbound
  | erase s id => exact ⟨h.ref_lt, h.unbound⟩
  | trans first second ih ih' => exact ih' (ih h)

/-- The object of a session that is removed has ended. -/
theorem ended_of_removeSession (h : s.Distinct) (hid : s.session? id = some ref) :
    (s.removeSession id).Ended ref := by
  rw [removeSession, hid]
  refine ⟨h.ref_lt id ref hid, ?_⟩
  show ((s.objects.set ref _).get ref).unbound = true
  rw [Heap.get_set_self]
  exact Session.unbound_unbind ..

/-! ## Runs without them -/

/-- Work on an object that has ended can be left out: the store is the same, and so is what all other
operations answer. -/
theorem Ended.filter (h : s.Ended ref) (ops : List Operation) :
    s.after ops = s.after (ops.filter (!·.isOn ref)) ∧
      (s.trace ops).filter (!·.1.isOn ref) = s.trace (ops.filter (!·.isOn ref)) := by
  induction ops generalizing s with
  | nil => exact ⟨rfl, rfl⟩
  | cons op ops ih =>
    obtain ⟨hafter, htrace⟩ := ih (h.moves (moves_apply s op))
    by_cases hop : op.isOn ref
    · obtain ⟨w, rfl⟩ : ∃ w, op = .held ref w := by
        cases op with
        | held other w => exact ⟨w, congrArg (Operation.held · w) (of_decide_eq_true hop)⟩
        | call | destroy => cases hop
      have hsame : (s.apply (.held ref w)).2 = s := congrArg Prod.snd (h.work w)
      rw [hsame] at hafter htrace
      rw [List.filter_cons_of_neg (by simpa using hop), after_cons, trace, hsame,
        List.filter_cons_of_neg (by simpa using hop)]
      exact ⟨hafter, htrace⟩
    · rw [List.filter_cons_of_pos (by simpa using hop), after_cons, after_cons, trace, trace,
        List.filter_cons_of_pos (by simpa using hop), hafter, htrace]
      exact ⟨rfl, rfl⟩

/-- The removal of a session is final for those who hold its object. Whatever was done with a store and
its objects before, and whatever is done afterwards: work on the object reads nothing and leaves the
whole store as it is, its files and those it has open; without this work the store would be the same,
and all else would have been answered in the same way. -/
theorem removeSession_final (folder : StoreFolder) (budget capacity : Nat) (disk : Disk)
    (objects : Heap Session) (before later : List Operation)
    (hstart : start folder budget capacity disk objects = .ok s₀)
    (hid : (s₀.after before).session? id = some ref) :
    let gone := (s₀.after before).removeSession id
    (∀ w, (gone.after later).work ref w = (w.nothing, gone.after later)) ∧
      gone.after later = gone.after (later.filter (!·.isOn ref)) ∧
      (gone.trace later).filter (!·.1.isOn ref) = gone.trace (later.filter (!·.isOn ref)) := by
  have hended := ended_of_removeSession ((distinct_of_start hstart).moves (moves_after s₀ before)) hid
  exact ⟨fun w => (hended.moves (moves_after _ later)).work w, hended.filter later⟩

/-- A start that succeeds gives a store, by which it can be named. -/
theorem start_of_isOk {folder : StoreFolder} {budget capacity : Nat} {disk : Disk}
    {objects : Heap Session} (h : (start folder budget capacity disk objects).isOk = true) :
    start folder budget capacity disk objects =
      .ok ((start folder budget capacity disk objects).toOption.getD default) := by
  cases hstart : start folder budget capacity disk objects with
  | ok s => rfl
  | error e =>
    rw [hstart] at h
    cases h

/-- A store that was started where there was nothing. -/
def startedInHome : DiskStore :=
  (start ⟨⟨"store"⟩⟩ 9 1 (Disk.ofHome ["home"])).toOption.getD default

theorem start_startedInHome :
    start ⟨⟨"store"⟩⟩ 9 1 (Disk.ofHome ["home"]) = .ok startedInHome :=
  start_of_isOk (by decide +kernel)

/-- The session has ended before it is removed, and begins again. -/
theorem removeSession_final_of_late_work :
    let before : List Operation :=
      [.call (.store "a" 1 [1]), .held 0 .unbind, .call (.store "a" 2 [2])]
    let later : List Operation := [.call (.store "a" 1 [5]), .held 0 (.save 1 [7]), .held 0 .unbind,
      .held 0 (.remove 1), .call (.load "a" 1)]
    let gone := (startedInHome.after before).removeSession "a"
    (gone.after later).work 0 (.load 1) = (.page none, gone.after later) ∧
      (gone.trace later).filter (!·.1.isOn 0) =
        [(.call (.store "a" 1 [5]), .done), (.call (.load "a" 1), .page (some [5]))] := by
  have hid : (startedInHome.after
      [.call (.store "a" 1 [1]), .held 0 .unbind, .call (.store "a" 2 [2])]).session? "a" = some 0 := by
    decide +kernel
  obtain ⟨hwork, -, htrace⟩ := removeSession_final ⟨⟨"store"⟩⟩ 9 1 (Disk.ofHome ["home"]) .empty _
    [.call (.store "a" 1 [5]), .held 0 (.save 1 [7]), .held 0 .unbind, .held 0 (.remove 1),
      .call (.load "a" 1)] start_startedInHome hid
  exact ⟨hwork (.load 1), htrace.trans (by decide +kernel)⟩

end DiskStore

end StatefulPages
