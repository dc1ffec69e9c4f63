import StatefulPages.Proofs.Cycle.ListenerUrls
import StatefulPages.Proofs.Cycle.PageObjects
import StatefulPages.Proofs.Cycle.TouchedPages
import StatefulPages.Proofs.Storage.AgedStore
import StatefulPages.Proofs.Storage.RecentPages

/-!
# Saved pages

A session that is kept in memory has the pages that its requests saved last, each as it was saved last.
Which these are is said by a list that every commit appends the pages to that it stores, in the states
they have then, and that is empty again when the session is cleared. A request commits when it ends, and its
listeners may commit before.

* `Cycle.saves`, `Cycle.Leaves`: the pages that a commit and a request save;
* `Cycle.store_commit`: a commit stores these pages, and nothing else;
* `Application.Visited`: the states of a session between its requests, with the pages that were saved;
* `Application.Kept`: what the store has of these pages, which all steps of requests preserve;
* `Application.Visited.remembers`: what later requests find;
* `Application.Visited.finds_other_of_counter`: not always the pages as they were when a request ended.
-/

namespace StatefulPages

/-! ## What is saved -/

namespace Application

/-- Indicates a page that a commit stores. -/
def stores (a : Application) (page : Page) : Bool :=
  !page.stateless && (a.serialize page).isSome

/-- What is stored of a page. -/
def entry (a : Application) (page : Page) : PageId × List UInt8 :=
  (page.id, (a.serialize page).getD [])

/-- A page is read back with everything that a view of it shows. -/
def Reads {α : Type} (a : Application) (view : Page → α) : Prop :=
  ∀ page data, a.serialize page = some data → (a.deserialize data).map view = some (view page)

end Application

namespace Cycle

variable {σ : Type} [SessionStore σ]

/-- The pages that a commit stores, in order. -/
def saves (c : Cycle) (s : CycleState σ) : List Page :=
  (s.touched.map s.page).filter c.application.stores

/-- The pages that have been saved after a step of a program. -/
def savedBy (c : Cycle) (saved : List Page) : Program × CycleState σ → List Page
  | (.commit _, s) => saved ++ c.saves s
  | (.clear _, _) => []
  | _ => saved

/-- The steps that listeners take in a request. -/
def steps (c : Cycle) (n : Nat) (s : CycleState σ) : List (Program × CycleState σ) :=
  (c.turns n s).flatMap (·.steps c)

/-- The pages that have been saved when the handlers of a request are done: listeners may save pages and
clear the session. -/
def savedWithin (c : Cycle) (n : Nat) (s : CycleState σ) (saved : List Page) : List Page :=
  (c.steps n s).foldl c.savedBy saved

/-- The pages that have been saved after a request: at last the pages are saved that are touched then. -/
def savedAfter (c : Cycle) (n : Nat) (s : CycleState σ) (saved : List Page) : List Page :=
  c.savedWithin n s saved ++ c.saves (c.endOf (c.turns n s) s)

/-- What a request leaves, with the pages that have been saved then. -/
inductive Leaves (c : Cycle) (n : Nat) (s : CycleState σ) (saved : List Page) :
    CycleState σ → List Page → Prop
  | committed {result : Except Failure Outcome} {t : CycleState σ}
      (hprocess : c.process n s = some (result, t)) : Leaves c n s saved t (c.savedAfter n s saved)
  /-- After a panic there is no commit. -/
  | panicked {message : String} {t : CycleState σ}
      (hrun : c.runHandlers n s = some (.error (.panicked message), t)) :
      Leaves c n s saved t (c.savedWithin n s saved)

/-- A page of the session, as a handler finds it. -/
def getPage (c : Cycle) (id : PageId) (s : CycleState σ) : Option Page :=
  (c.find id s).1.map (c.find id s).2.page

end Cycle

/-- The states of a session in memory between its requests, with the pages that have been saved since it
was cleared. Between requests anything may happen but to the pages that are stored for the session. -/
inductive Application.Visited (a : Application) (session : SessionId) (limit : Nat) :
    CycleState MemoryStore → List Page → Prop
  | start (s : CycleState MemoryStore) (hstore : s.store = .ofLimit limit) : Visited a session limit s []
  | between {s : CycleState MemoryStore} {saved : List Page} (h : Visited a session limit s saved)
      (t : CycleState MemoryStore) (hpages : t.store.pages session = s.store.pages session)
      (hlimit : t.store.limit = s.store.limit) : Visited a session limit t saved
  | request {s : CycleState MemoryStore} {saved : List Page} (h : Visited a session limit s saved)
      (c : Cycle) (happlication : c.application = a) (hsession : c.session = session) (n : Nat)
      {t : CycleState MemoryStore} {later : List Page}
      (hleaves : c.Leaves n s.fresh saved t later) : Visited a session limit t later

/-! ## What a commit stores -/

theorem Application.serialize_of_stores {a : Application} {page : Page} (h : a.stores page = true) :
    page.stateless = false ∧ a.serialize page = some (a.entry page).2 := by
  rw [stores, Bool.and_eq_true, Bool.not_eq_true', Option.isSome_iff_exists] at h
  obtain ⟨hstateless, data, hserialize⟩ := h
  refine ⟨hstateless, ?_⟩
  rw [entry, hserialize]
  rfl

namespace Cycle

variable {σ : Type} [SessionStore σ]

/-- How a page is stored. -/
def storing (c : Cycle) (page : Page) : SessionStore.Call :=
  .store c.session page.id (c.application.entry page).2

theorem store_storePage (c : Cycle) (s : CycleState σ) (ref : PageRef) : (c.storePage s ref).store =
    SessionStore.run s.store (([s.page ref].filter c.application.stores).map c.storing) := by
  rw [storePage]
  cases hstateless : (s.page ref).stateless with
  | true =>
    rw [List.filter_cons_of_neg (by simp [Application.stores, hstateless])]
    rfl
  | false =>
    cases hserialize : c.application.serialize (s.page ref) with
    | none =>
      rw [List.filter_cons_of_neg (by simp [Application.stores, hserialize])]
      rfl
    | some data =>
      rw [List.filter_cons_of_pos (by simp [Application.stores, hserialize, hstateless]), List.filter_nil,
        List.map_singleton, storing, Application.entry, hserialize]
      rfl

/-- A commit stores the pages that it saves, each with the id and the bytes that it has then. -/
theorem store_commit (c : Cycle) (s : CycleState σ) :
    (c.commit s).store = SessionStore.run s.store ((c.saves s).map c.storing) := by
  have hfold : ∀ (refs : List PageRef) (t : CycleState σ), t.pages = s.pages →
      (refs.foldl c.storePage t).store =
        SessionStore.run t.store (((refs.map s.page).filter c.application.stores).map c.storing) := by
    intro refs
    induction refs with
    | nil => exact fun t _ => rfl
    | cons ref refs ih =>
      intro t hpages
      have hpage : t.page ref = s.page ref := by rw [CycleState.page, hpages, CycleState.page]
      rw [List.foldl_cons, ih _ ((c.pages_storePage t ref).trans hpages), store_storePage, hpage,
        ← SessionStore.run_append, ← List.map_append, ← List.filter_append]
      rfl
  exact hfold s.touched _ rfl

end Cycle

/-! ## What the store has -/

/-- A store has the pages of a session that were saved last, no more than its limit. -/
structure Application.Kept (a : Application) (session : SessionId) (limit : Nat) (saved : List Page)
    (store : MemoryStore) : Prop where
  limit : store.limit = max limit 1
  recent : store.Recent session (saved.map a.entry)
  stored : ∀ page ∈ saved, a.stores page = true

namespace Application

theorem kept_ofLimit (a : Application) (session : SessionId) (limit : Nat) :
    a.Kept session limit [] (.ofLimit limit) where
  limit := rfl
  recent := MemoryStore.recent_ofLimit limit session
  stored := nofun

namespace Kept

variable {c : Cycle} {limit : Nat} {saved : List Page} {s t : CycleState MemoryStore} {store : MemoryStore}

theorem clear (h : c.application.Kept c.session limit saved s.store) :
    c.application.Kept c.session limit [] (c.clear s).store where
  limit := h.limit
  recent := s.store.recent_removeSession c.session
  stored := nofun

section

variable (hempty : ∀ page, c.application.serialize page ≠ some [])

include hempty

theorem storing (h : c.application.Kept c.session limit saved store) {page : Page}
    (hstores : c.application.stores page = true) :
    c.application.Kept c.session limit (saved ++ [page]) (SessionStore.call store (c.storing page)).2 := by
  have hdata : (c.application.entry page).2 ≠ [] := fun hnil =>
    hempty page (hnil ▸ (serialize_of_stores hstores).2)
  have hlimit : 0 < store.limit := by
    rw [h.limit]
    exact Nat.le_max_right limit 1
  refine ⟨(store.limit_store ..).trans h.limit, ?_, ?_⟩
  · rw [List.map_append, List.map_singleton]
    exact h.recent.store hlimit page.id hdata
  · rw [List.forall_mem_append, List.forall_mem_singleton]
    exact ⟨h.stored, hstores⟩

theorem run_storing (pages : List Page) (hstores : ∀ page ∈ pages, c.application.stores page = true)
    (h : c.application.Kept c.session limit saved store) :
    c.application.Kept c.session limit (saved ++ pages)
      (SessionStore.run store (pages.map c.storing)) := by
  induction pages generalizing saved store with
  | nil =>
    rw [List.append_nil]
    exact h
  | cons page pages ih =>
    rw [List.forall_mem_cons] at hstores
    rw [List.append_cons]
    exact ih hstores.2 (storing hempty h hstores.1)

/-- A commit saves the pages that have been touched. -/
theorem commit (h : c.application.Kept c.session limit saved s.store) :
    c.application.Kept c.session limit (saved ++ c.saves s) (c.commit s).store := by
  rw [c.store_commit]
  exact run_storing hempty (c.saves s) (fun page hpage => (List.mem_filter.1 hpage).2) h

end

end Kept

end Application

/-! ## Steps -/

namespace Cycle

variable {c : Cycle} {s t : CycleState MemoryStore}

/-- To look for a page leaves the store alone. -/
theorem store_find (c : Cycle) (id : PageId) (s : CycleState MemoryStore) :
    (c.find id s).2.store = s.store := by
  rw [find]
  split
  · rfl
  · split
    rename_i hload
    cases hload
    split <;> rfl

theorem store_create (c : Cycle) (pageClass : PageClass) (p : Parameters)
    (s : CycleState MemoryStore) : (c.create pageClass p s).2.store = s.store := by
  rw [create]
  split <;> rfl

/-- So does request handling until it commits. -/
theorem store_of_acts (h : c.Acts s t) : t.store = s.store := by
  induction h with
  | refl => rfl
  | tail _ hact ih =>
    rw [← ih]
    cases hact with
    | find id => exact c.store_find id _
    | create pageClass p => exact c.store_create pageClass p _
    | touch | schedule | freeze => rfl

theorem store_settle (c : Cycle) (turn : Except Failure Outcome × CycleState MemoryStore) :
    (c.settle turn).2.store = turn.2.store := by
  rw [store_of_acts (c.acts_settle turn), dropWaiting]
  split <;> rfl

end Cycle

namespace Application.Kept

variable {c : Cycle} {limit : Nat} {saved : List Page} {s t : CycleState MemoryStore}
  (hempty : ∀ page, c.application.serialize page ≠ some [])

include hempty

theorem of_step? {p q : Program} (hstep : p.step? c s = some (q, t))
    (h : c.application.Kept c.session limit saved s.store) :
    c.application.Kept c.session limit (c.savedBy saved (p, s)) t.store := by
  cases p <;> cases hstep
  case find id _ =>
    rw [c.store_find]
    exact h
  case create pageClass p _ =>
    rw [c.store_create]
    exact h
  case commit => exact commit hempty h
  case clear => exact clear h
  all_goals exact h

/-- What a program saves is in the store when it is done. -/
theorem run (p : Program) (h : c.application.Kept c.session limit saved s.store) :
    c.application.Kept c.session limit ((p.steps c s).foldl c.savedBy saved) (p.run c s).2.store := by
  induction p, s using @Program.induct MemoryStore _ c generalizing saved with
  | ended p s hended =>
    rw [Program.steps_of_ended hended, Program.run_of_ended hended]
    cases p <;> cases hended <;> exact h
  | stepped p s q t hstep ih =>
    rw [Program.steps_of_step? hstep, Program.run_of_step? hstep, List.foldl_cons]
    exact ih (of_step? hempty hstep h)

theorem turn {turn : Turn MemoryStore}
    (h : c.application.Kept c.session limit saved turn.before.store) :
    c.application.Kept c.session limit ((turn.steps c).foldl c.savedBy saved)
      (turn.ended c).2.store := by
  rw [Turn.ended, c.store_settle]
  cases hcall : turn.call? c with
  | some called =>
    obtain ⟨call, target⟩ := called
    have hready := Cycle.store_of_acts (Turn.acts_readyCall_of_call hcall)
    have hstart : (target.start c call).store = turn.before.store := hready
    rw [Cycle.store_of_acts (Turn.acts_response_of_call hcall), Turn.steps_of_call hcall]
    rw [← hstart] at h
    exact run hempty _ h
  | none =>
    rw [Cycle.store_of_acts (Turn.acts_response_of_none hcall), Turn.steps_of_none hcall]
    exact h

/-- What listeners save is in the store when the handlers of a request are done. -/
theorem endOf (n : Nat) (h : c.application.Kept c.session limit saved s.store) :
    c.application.Kept c.session limit (c.savedWithin n s saved) (c.endOf (c.turns n s) s).store := by
  rw [Cycle.savedWithin, Cycle.steps, List.foldl_flatMap]
  exact Cycle.endOf_induct (motive := fun saved t => c.application.Kept c.session limit saved t.store)
    (fun _ _ _ _ h => h) (fun _ _ => turn hempty) n h

/-- What a request saves is in the store when it is over. -/
theorem leaves {n : Nat} {later : List Page} (hleaves : c.Leaves n s saved t later)
    (h : c.application.Kept c.session limit saved s.store) :
    c.application.Kept c.session limit later t.store := by
  cases hleaves with
  | committed hprocess =>
    rw [Cycle.eq_finish_of_process hprocess]
    exact commit hempty (endOf hempty n h)
  | panicked hrun =>
    rw [show t = _ from Cycle.eq_endOf_of_runHandlers hrun]
    exact endOf hempty n h

end Application.Kept

/-! ## What is found -/

namespace Application

variable {a : Application} {session : SessionId} {limit : Nat} {saved later : List Page} {id : PageId}

theorem map_fst_entry (a : Application) (saved : List Page) :
    (saved.map a.entry).map Prod.fst = saved.map Page.id := by
  rw [List.map_map]
  rfl

namespace Kept

variable {store store' : MemoryStore}

/-- What is stored for a session is stored as the page that it is. -/
theorem page_of_mem (h : a.Kept session limit saved store) {data : List UInt8}
    (hmem : (id, data) ∈ store.pages session) :
    ∃ page, page.id = id ∧ page.stateless = false ∧ a.serialize page = some data := by
  rw [h.recent] at hmem
  obtain ⟨page, hpage, hentry⟩ := List.mem_map.1
    (MemoryStore.mem_of_mem_latest (List.mem_of_mem_drop hmem))
  obtain ⟨hstateless, hserialize⟩ := serialize_of_stores (h.stored page hpage)
  rw [hentry] at hserialize
  exact ⟨page, congrArg Prod.fst hentry, hstateless, hserialize⟩

/-- There are the bytes of the pages that were saved last, each as it was saved last. -/
theorem load (h : a.Kept session limit saved store) (id : PageId) : store.load session id =
    if id ∈ (saved.map Page.id).dedup.rtake (max limit 1) then
      (saved.reverse.find? (·.id = id)).bind a.serialize
    else none := by
  rw [h.recent.load, map_fst_entry, h.limit, ← List.map_reverse, List.find?_map]
  congr 1
  show ((saved.reverse.find? (·.id = id)).map a.entry).map Prod.snd = _
  cases hfind : saved.reverse.find? (·.id = id) with
  | none => rfl
  | some page =>
    have hpage := List.mem_reverse.1 (List.mem_of_find?_eq_some hfind)
    exact (serialize_of_stores (h.stored page hpage)).2.symm

/-- A page that is not saved any more has its bytes as long as it is there. -/
theorem load_of_append (h : a.Kept session limit saved store)
    (h' : a.Kept session limit (saved ++ later) store') (hlater : ∀ page ∈ later, page.id ≠ id) :
    store'.load session id =
      if id ∈ ((saved ++ later).map Page.id).dedup.rtake (max limit 1) then store.load session id
      else none := by
  have hrecent := h'.recent
  rw [List.map_append] at hrecent
  have hpos : 0 < store.limit := by
    rw [h.limit]
    exact Nat.le_max_right limit 1
  have hload := h.recent.load_of_append hrecent (h'.limit.trans h.limit.symm) hpos
    (List.forall_mem_map.2 hlater)
  rwa [← List.map_append, map_fst_entry, h'.limit] at hload

end Kept

end Application

namespace Cycle

variable {c : Cycle} {s : CycleState MemoryStore} {steps : List (Program × CycleState MemoryStore)}

/-- At the start of a request a page is what is read of its bytes. -/
theorem getPage_fresh (c : Cycle) (id : PageId) (s : CycleState MemoryStore) :
    c.getPage id s.fresh = (s.store.load c.session id).bind c.application.deserialize := by
  have hload : SessionStore.load s.store c.session id = (s.store.load c.session id, s.store) := rfl
  rw [getPage, find, CycleState.fresh, List.find?_nil]
  simp only [hload]
  cases (s.store.load c.session id).bind c.application.deserialize with
  | none => rfl
  | some page => exact congrArg some (Heap.get_add ..)

/-- As long as nobody clears the session, what is saved is added to what was saved. -/
theorem foldl_savedBy (hclear : ∀ step ∈ steps, ∀ next, step.1 ≠ .clear next) (saved later : List Page) :
    steps.foldl c.savedBy (saved ++ later) = saved ++ steps.foldl c.savedBy later := by
  induction steps generalizing later with
  | nil => rfl
  | cons step steps ih =>
    rw [List.forall_mem_cons] at hclear
    have hstep : c.savedBy (saved ++ later) step = saved ++ c.savedBy later step := by
      obtain ⟨p, s⟩ := step
      cases p with
      | commit => exact List.append_assoc ..
      | clear next => exact absurd rfl (hclear.1 next)
      | _ => rfl
    rw [List.foldl_cons, hstep, ih hclear.2, List.foldl_cons]

/-- As long as nobody commits, nothing is saved. -/
theorem foldl_savedBy_of_quiet (hquiet : ∀ step ∈ steps, ∀ next, step.1 ≠ .commit next) :
    steps.foldl c.savedBy [] = [] := by
  induction steps with
  | nil => rfl
  | cons step steps ih =>
    rw [List.forall_mem_cons] at hquiet
    have hstep : c.savedBy [] step = [] := by
      obtain ⟨p, s⟩ := step
      cases p with
      | commit next => exact absurd rfl (hquiet.1 next)
      | _ => rfl
    rw [List.foldl_cons, hstep, ih hquiet.2]

/-- So a request adds the pages that it saves to those saved before. -/
theorem Leaves.append {n : Nat} {t : CycleState MemoryStore} {later : List Page}
    (h : c.Leaves n s [] t later) (hclear : ∀ step ∈ c.steps n s, ∀ next, step.1 ≠ .clear next)
    (saved : List Page) : c.Leaves n s saved t (saved ++ later) := by
  have hwithin : c.savedWithin n s saved = saved ++ c.savedWithin n s [] := by
    have hfold := foldl_savedBy (c := c) hclear saved []
    rwa [List.append_nil] at hfold
  cases h with
  | committed hprocess =>
    have hafter : saved ++ c.savedAfter n s [] = c.savedAfter n s saved := by
      rw [savedAfter, savedAfter, hwithin, List.append_assoc]
    rw [hafter]
    exact .committed hprocess
  | panicked hrun =>
    rw [← hwithin]
    exact .panicked hrun

end Cycle

namespace Application

variable {a : Application} {session : SessionId} {limit : Nat} {s : CycleState MemoryStore}
  {saved : List Page}

/-- A session remembers the pages that were saved. -/
structure Remembers {α : Type} (a : Application) (session : SessionId) (limit : Nat) (view : Page → α)
    (s : CycleState MemoryStore) (saved : List Page) : Prop where
  /-- Every page is stored under its own id, and is not stateless. -/
  own : ∀ id data, (id, data) ∈ s.store.pages session →
    ∃ page, page.id = id ∧ page.stateless = false ∧ a.serialize page = some data
  /-- A request begins with the pages that were saved last, each as it was saved last, and no others. -/
  found : ∀ c : Cycle, c.application = a → c.session = session → ∀ id,
    (c.getPage id s.fresh).map view =
      if id ∈ (saved.map Page.id).dedup.rtake (max limit 1) then
        (saved.reverse.find? (·.id = id)).map view
      else none
  /-- A request adds the pages that it saves to those saved before, unless a listener clears the session. -/
  added : ∀ c : Cycle, c.application = a → c.session = session → ∀ n t later,
    c.Leaves n s.fresh [] t later → (∀ step ∈ c.steps n s.fresh, ∀ next, step.1 ≠ .clear next) →
    a.Visited session limit t (saved ++ later)
  /-- These are at last the pages that are touched when it ends, in the states they have then. Before that,
  pages are saved only by listeners that commit. -/
  ended : ∀ c : Cycle, c.application = a → c.session = session → ∀ n result t,
    c.process n s.fresh = some (result, t) →
    c.Leaves n s.fresh [] t (c.savedWithin n s.fresh [] ++
      ((c.endOf (c.turns n s.fresh) s.fresh).touched.map t.page).filter a.stores) ∧
    ((∀ step ∈ c.steps n s.fresh, ∀ next, step.1 ≠ .commit next) → c.savedWithin n s.fresh [] = [])
  /-- A page that a request does not save has its bytes as before, as long as it is there. -/
  untouched : ∀ c : Cycle, c.application = a → c.session = session → ∀ n t later,
    c.Leaves n s.fresh [] t later → (∀ step ∈ c.steps n s.fresh, ∀ next, step.1 ≠ .clear next) →
    ∀ id, (∀ page ∈ later, page.id ≠ id) →
    t.store.load session id =
      if id ∈ ((saved ++ later).map Page.id).dedup.rtake (max limit 1) then s.store.load session id
      else none

theorem Visited.kept (hempty : ∀ page, a.serialize page ≠ some [])
    (h : a.Visited session limit s saved) : a.Kept session limit saved s.store := by
  induction h with
  | start s hstore =>
    rw [hstore]
    exact a.kept_ofLimit session limit
  | between _ t hpages hlimit ih =>
    refine ⟨hlimit.trans ih.limit, ?_, ih.stored⟩
    rw [MemoryStore.Recent, hpages, hlimit]
    exact ih.recent
  | request _ c happlication hsession n hleaves ih =>
    cases happlication
    cases hsession
    exact Kept.leaves hempty hleaves ih

/-- A session in memory remembers its pages from request to request. -/
theorem Visited.remembers {α : Type} {view : Page → α} (hview : a.Reads view)
    (hempty : ∀ page, a.serialize page ≠ some []) (h : a.Visited session limit s saved) :
    a.Remembers session limit view s saved where
  own _ _ hmem := (h.kept hempty).page_of_mem hmem
  found := by
    rintro c rfl rfl id
    rw [c.getPage_fresh, (h.kept hempty).load]
    split
    · cases hfind : saved.reverse.find? (·.id = id) with
      | none => rfl
      | some page =>
        have hpage := List.mem_reverse.1 (List.mem_of_find?_eq_some hfind)
        obtain ⟨-, hserialize⟩ := serialize_of_stores ((h.kept hempty).stored page hpage)
        rw [Option.bind_some, hserialize, Option.bind_some, hview page _ hserialize]
        rfl
    · rfl
  added := by
    rintro c rfl rfl n t later hleaves hclear
    exact h.request c rfl rfl n (hleaves.append hclear saved)
  ended := by
    rintro c rfl rfl n result t hprocess
    have hpages : t.pages = (c.endOf (c.turns n s.fresh) s.fresh).pages := by
      rw [Cycle.eq_finish_of_process hprocess]
      exact Cycle.pages_commit ..
    have hpage : t.page = (c.endOf (c.turns n s.fresh) s.fresh).page := by
      funext ref
      rw [CycleState.page, hpages, CycleState.page]
    rw [hpage]
    exact ⟨.committed hprocess, Cycle.foldl_savedBy_of_quiet⟩
  untouched := by
    rintro c rfl rfl n t later hleaves hclear id hlater
    have hbefore := h.kept hempty
    have hfresh : c.application.Kept c.session limit saved s.fresh.store := hbefore
    exact hbefore.load_of_append (Kept.leaves hempty (hleaves.append hclear saved) hfresh) hlater

/-! ## A counter -/

/-- A page that is read back as it was written is read back with all that it shows. -/
theorem Lossless.reads (h : a.Lossless) : a.Reads id := by
  intro page data hserialize
  rw [h page data hserialize]
  rfl

theorem serialize_script_ne_nil (script : Script) (page : Page) :
    script.application.serialize page ≠ some [] := by
  intro hserialize
  have hbytes : script.serialize page = some [] := hserialize
  rw [Script.serialize] at hbytes
  split at hbytes
  · cases hbytes
  · exact page.toBytes_ne_nil (Option.some.inj hbytes)

/-- A call on a page object. -/
def counterCall (page : PageRef) (path : String) : ListenerCall where
  page := { live := some page }
  path := path
  interface := ⟨"IBehaviorListener", false⟩

/-- An application of which the pages count. Some do more, and fail: the first page saves itself and counts
once more, and the second one takes a new id. -/
def counterScript : Script :=
  [("Counter", { components := [{ path := "up", actions := [.bump] },
    { path := "save", actions := [.bump, .schedule (.listener (counterCall 0 "saved"))] },
    { path := "saved", actions := [.commit, .bump, .fail] },
    { path := "move", actions := [.schedule (.listener (counterCall 1 "moved"))] },
    { path := "moved", actions := [.newId, .fail] }] })]

/-- The requests of a session of the application, which are mapped to a handler or to nothing. -/
def counterCycle (h : Option Handler) : Cycle where
  request := Request.ofText ""
  mapper := .ofRequests (fun _ => 0) (fun _ => h) fun _ _ => none
  application := counterScript.application
  session := "s"

def counterRequest (page : PageRef) (path : String) : Cycle :=
  counterCycle (some (.listener (counterCall page path)))

def counterState : CycleState MemoryStore where
  pages := (Heap.empty.add { id := 5, pageClass := "Counter" }).add { id := 6, pageClass := "Counter" }
  nextId := 5
  store := .ofLimit 1

/-- A page that has counted is found as it was when the request ended, and a request that does nothing
leaves its bytes. -/
theorem Visited.remembers_of_counter : ∃ t u,
    (counterRequest 0 "up").process 0 counterState.fresh =
      some (.ok (.called 5 "up"), t) ∧
    (counterCycle none).process 0 t.fresh = some (.ok .notFound, u) ∧
    (counterCycle none).getPage 5 t.fresh = some { id := 5, pageClass := "Counter", renderCount := 1 } ∧
    (counterCycle none).getPage 6 t.fresh = none ∧ u.store.load "s" 5 = t.store.load "s" 5 := by
  have hcount : ∃ t, (counterRequest 0 "up").process 0 counterState.fresh =
      some (.ok (.called 5 "up"), t) := ⟨_, rfl⟩
  obtain ⟨t, ht⟩ := hcount
  have hnothing : ∃ u, (counterCycle none).process 0 t.fresh = some (.ok .notFound, u) := ⟨_, rfl⟩
  obtain ⟨u, hu⟩ := hnothing
  have hstart : counterScript.application.Visited "s" 1 counterState [] := .start counterState rfl
  have hvisited := hstart.request (counterRequest 0 "up") rfl rfl 0
    (.committed ht)
  have hremembers := hvisited.remembers counterScript.lossless_application.reads
    (serialize_script_ne_nil counterScript)
  have hsaved : (counterRequest 0 "up").savedAfter 0 counterState.fresh [] =
      [{ id := 5, pageClass := "Counter", renderCount := 1 }] := rfl
  rw [hsaved] at hremembers
  have hfound := hremembers.found (counterCycle none) rfl rfl
  have hbytes := hremembers.untouched (counterCycle none) rfl rfl 0 u _ (.committed hu) nofun 5 nofun
  refine ⟨t, u, ht, hu, ?_, ?_, ?_⟩
  · have hfive := hfound 5
    rw [if_pos (by decide), Option.map_id] at hfive
    exact hfive
  · have hsix := hfound 6
    rw [if_neg (by decide), Option.map_id] at hsix
    exact hsix
  · have hnone : (counterCycle none).savedAfter 0 t.fresh [] = [] := rfl
    rw [hbytes, hnone, if_pos (by decide)]

/-- A page that saves itself, counts once more and fails is found as it was saved, and not as it was when the
request ended. And a page that takes a new id when it has been touched is saved in the place of the page with
that id, though no page with that id has been touched. -/
theorem Visited.finds_other_of_counter :
    (∃ result t, (counterRequest 0 "save").process 1 counterState.fresh =
        some (result, t) ∧
      t.page 0 = { id := 5, pageClass := "Counter", renderCount := 2 } ∧
      (counterCycle none).getPage 5 t.fresh =
        some { id := 5, pageClass := "Counter", renderCount := 1 }) ∧
    ∃ t result u, (counterRequest 0 "up").process 0 counterState.fresh =
        some (.ok (.called 5 "up"), t) ∧
      (counterRequest 1 "move").process 1 t.fresh = some (result, u) ∧
      (∀ touch ∈ (counterRequest 1 "move").touches 1 t.fresh,
        (touch.state.page touch.page).id ≠ 5) ∧
      (counterCycle none).getPage 5 t.fresh =
        some { id := 5, pageClass := "Counter", renderCount := 1 } ∧
      (counterCycle none).getPage 5 u.fresh =
        some { id := 5, pageClass := "Counter", renderCount := 0 } := by
  refine ⟨⟨_, _, rfl, rfl, rfl⟩, _, _, _, rfl, rfl, ?_, rfl, rfl⟩
  decide

end Application

end StatefulPages
