import StatefulPages.Proofs.Cycle.RequestTurns
import StatefulPages.Proofs.Storage.AgedStore

/-!
# Touched pages

A page is touched when a handler has succeeded with it, or when it has changed and is rendered instead of
that; programs may touch pages, too. Whatever else request handling does, it does no more to the touched
pages, and only reads the store.

* `CycleState.OnlyReads`: no page is touched, and the store is only read;
* `Turn.page?`: the page that a handler works on;
* `Turn.exists_ended`: what is left of a turn when its listener is done: at most one page is touched;
* `Touch.kept`, `Cycle.touched_endOf`: which pages are left to be stored, of all that have been touched.
-/

namespace StatefulPages

variable {σ : Type} [SessionStore σ]

/-! ## Only reading -/

namespace CycleState

/-- From one state to another no page is touched, and the store is only read. -/
structure OnlyReads (c : Cycle) (s t : CycleState σ) : Prop where
  touched : t.touched = s.touched
  store : ∃ ids : List PageId, t.store = SessionStore.run s.store (ids.map (.load c.session))

variable {c : Cycle} {s t u : CycleState σ}

theorem OnlyReads.of_eq (htouched : t.touched = s.touched) (hstore : t.store = s.store) :
    s.OnlyReads c t :=
  ⟨htouched, [], hstore⟩

theorem OnlyReads.trans (hst : s.OnlyReads c t) (htu : t.OnlyReads c u) : s.OnlyReads c u := by
  obtain ⟨first, hfirst⟩ := hst.store
  obtain ⟨second, hsecond⟩ := htu.store
  refine ⟨htu.touched.trans hst.touched, first ++ second, ?_⟩
  rw [hsecond, hfirst, List.map_append, SessionStore.run_append]

end CycleState

namespace Cycle

variable {c : Cycle} {call : ListenerCall} {page : PageRef}

theorem onlyReads_find (c : Cycle) (id : PageId) (s : CycleState σ) : s.OnlyReads c (c.find id s).2 := by
  rw [find]
  split
  · exact .of_eq rfl rfl
  · split
    rename_i data store hload
    have hstore : store = SessionStore.run s.store ([id].map (.load c.session)) :=
      (congrArg Prod.snd hload).symm
    split <;> exact ⟨rfl, [id], hstore⟩

theorem onlyReads_create (c : Cycle) (pageClass : PageClass) (p : Parameters) (s : CycleState σ) :
    s.OnlyReads c (c.create pageClass p s).2 := by
  rw [create]
  split <;> exact .of_eq rfl rfl

theorem onlyReads_createFor (c : Cycle) (source : PageSource) (s : CycleState σ) :
    s.OnlyReads c (c.createFor source s).2 := by
  rw [createFor]
  split
  · exact .of_eq rfl rfl
  · exact c.onlyReads_create _ _ s

theorem onlyReads_resolve (c : Cycle) (source : PageSource) (s : CycleState σ) :
    s.OnlyReads c (c.resolve source s).2 := by
  rw [resolve]
  split
  · exact .of_eq rfl rfl
  · exact c.onlyReads_createFor source s
  · rename_i id _ _
    have hfind := c.onlyReads_find id s
    generalize c.find id s = found at hfind
    obtain ⟨found, t⟩ := found
    dsimp only at hfind ⊢
    split
    · split <;> exact hfind
    · split
      · exact hfind
      · exact hfind.trans (c.onlyReads_createFor source t)

theorem onlyReads_scheduleRender (c : Cycle) (call : ListenerCall) (page : PageRef) (s : CycleState σ) :
    s.OnlyReads c (c.scheduleRender call page s) := by
  rw [scheduleRender]
  split <;> exact .of_eq rfl rfl

theorem onlyReads_readyCall (c : Cycle) (call : ListenerCall) (page : PageRef) (s : CycleState σ) :
    s.OnlyReads c (c.readyCall call page s) := by
  have hschedule := c.onlyReads_scheduleRender call page s
  rw [readyCall]
  split
  · exact hschedule.trans (.of_eq rfl rfl)
  · exact hschedule

end Cycle

/-- Indicates a step by which a program says itself which pages are stored. -/
def Program.managesPages : Program → Bool
  | .touch .. | .commit _ | .clear _ => true
  | _ => false

namespace Program

variable {c : Cycle} {p q : Program} {s t : CycleState σ}

theorem onlyReads_of_step? (hquiet : p.managesPages = false) (h : p.step? c s = some (q, t)) :
    s.OnlyReads c t := by
  cases p <;> cases h
  case find id _ => exact c.onlyReads_find id s
  case create pageClass p _ => exact c.onlyReads_create pageClass p s
  case touch | commit | clear => cases hquiet
  all_goals exact .of_eq rfl rfl

/-- A program that does not say which pages are stored only reads. -/
theorem onlyReads_run (hquiet : ∀ step ∈ p.steps c s, step.1.managesPages = false) :
    s.OnlyReads c (p.run c s).2 := by
  induction p, s using @Program.induct σ _ c with
  | ended p s hended =>
    rw [run_of_ended hended]
    exact .of_eq rfl rfl
  | stepped p s q t hstep ih =>
    rw [steps_of_step? hstep, List.forall_mem_cons] at hquiet
    rw [run_of_step? hstep]
    exact (onlyReads_of_step? hquiet.1 hstep).trans (ih hquiet.2)

end Program

/-! ## Handlers -/

/-- Where a handler gets its page from, if it works on one. -/
def Handler.source? : Handler → Option PageSource
  | .render source _ => some source
  | .bookmarkable pageClass p => some (.ofClass pageClass p)
  | .listener call => some call.page
  | .resource .. | .buffered .. | .redirect _ => none

namespace Turn

/-- The page that the handler works on. -/
def page? (turn : Turn σ) (c : Cycle) : Option PageRef :=
  turn.handler.source?.bind fun source => (c.resolve source turn.begun).1.toOption.map (·.page)

/-- The state when the listener is done, if one is called; else the handler has only begun. -/
def stepped (turn : Turn σ) (c : Cycle) : CycleState σ :=
  match turn.call? c with
  | some (call, target) => ((target.listener call.interface).run c (target.start c call)).2
  | none => turn.begun

/-- The page that is touched at the end of a turn: the one that the handler has succeeded with, or one that
has changed and is rendered. -/
def lastTouched? (turn : Turn σ) (c : Cycle) : Option PageRef :=
  match turn.response c with
  | (.ok _, _) => turn.page? c
  | (.error (.stale id _ _), s) => (c.find id { s with queue := [] }).1
  | (.error _, _) => none

end Turn

namespace Cycle

variable {c : Cycle} {call : ListenerCall} {page : PageRef} {s : CycleState σ}

/-- A behavior that is not there is not called. -/
theorem invokeFrozen_of_none {component : Component} (h : component.listener? call.behavior = none)
    (page : PageRef) (s : CycleState σ) :
    ∃ e t, c.invokeFrozen call page component s = (.error e, t) ∧ s.OnlyReads c t := by
  have hinvoke : ∀ t : CycleState σ, ∃ e, c.invoke call page component t = (.error e, t) := by
    intro t
    rw [invoke]
    cases hbehavior : call.behavior with
    | none =>
      rw [hbehavior] at h
      cases h
    | some index =>
      rw [hbehavior] at h
      dsimp only
      rw [show component.behaviors[index]? = none from h]
      exact ⟨_, rfl⟩
  rw [invokeFrozen]
  split
  · obtain ⟨e, hfrozen⟩ := hinvoke (s.freeze page true).2
    rw [show s.freeze page true = ((s.freeze page true).1, (s.freeze page true).2) from rfl]
    dsimp only
    rw [hfrozen]
    exact ⟨e, _, rfl, .of_eq rfl rfl⟩
  · obtain ⟨e, hcalled⟩ := hinvoke s
    exact ⟨e, s, hcalled, .of_eq rfl rfl⟩

/-- A component that is not there, does not belong to the page or has no such behavior is not called. -/
theorem callOn_of_none {found : CycleState σ} (h : c.listenerOn? call page found = none) :
    ∃ e t, c.callOn call page found = (.error e, t) ∧ found.OnlyReads c t := by
  rw [callOn]
  split
  · exact ⟨_, found, rfl, .of_eq rfl rfl⟩
  · rename_i component hcomponent
    by_cases howner : component.owner = some (found.page page).id
    · rw [listenerOn?, hcomponent, Option.bind_some, if_pos howner] at h
      obtain ⟨e, t, hinvoke, hreads⟩ :=
        invokeFrozen_of_none (c := c) h page (c.scheduleRender call page found)
      rw [if_neg (not_not_intro howner), hinvoke]
      exact ⟨e, t, rfl, (c.onlyReads_scheduleRender call page found).trans hreads⟩
    · rw [if_pos howner]
      exact ⟨_, found, rfl, .of_eq rfl rfl⟩

omit [SessionStore σ] in
/-- The page of a call is touched if the call succeeds. -/
theorem endCall_eq (c : Cycle) (call : ListenerCall) (page : PageRef) (wasFrozen : Bool)
    (result : Except Failure Unit × CycleState σ) : ∃ u,
    u.touched = result.2.touched ∧ u.store = result.2.store ∧
      c.endCall call page wasFrozen result = match result.1 with
        | .ok _ => (.ok (.called (u.page page).id call.path), u.touch page)
        | .error e => (.error e, u) := by
  refine ⟨if c.request.isAjax then (result.2.freeze page wasFrozen).2 else result.2, ?_, ?_, rfl⟩
  · split <;> rfl
  · split <;> rfl

/-- A call that reaches no listener fails, unless its page had to be made again and is rendered instead. -/
theorem call_of_none (h : c.target? call s = none) : ∃ u, s.OnlyReads c u ∧
    ((∃ e, c.call call s = (.error e, u)) ∨ ∃ outcome page,
      (c.resolve call.page s).1.toOption.map (·.page) = some page ∧
        c.call call s = (.ok outcome, u.touch page)) := by
  have hresolve := c.onlyReads_resolve call.page s
  rw [target?] at h
  rw [Cycle.call]
  generalize c.resolve call.page s = resolved at h hresolve
  obtain ⟨e | r, found⟩ := resolved
  · exact ⟨found, hresolve, .inl ⟨e, rfl⟩⟩
  · dsimp only at h hresolve ⊢
    split at h
    · rename_i hmade
      rw [if_pos hmade]
      exact ⟨found, hresolve, .inr ⟨_, r.page, rfl, rfl⟩⟩
    · rename_i hkept
      obtain ⟨e, t, hcall, hreads⟩ := callOn_of_none (Option.map_eq_none_iff.1 h)
      rw [if_neg hkept, hcall]
      exact ⟨t, hresolve.trans hreads, .inl ⟨e, rfl⟩⟩

end Cycle

namespace Turn

variable {c : Cycle} {turn : Turn σ} {call : ListenerCall} {target : Target σ}

theorem stepped_of_call (h : turn.call? c = some (call, target)) :
    turn.stepped c = ((target.listener call.interface).run c (target.start c call)).2 := by
  rw [stepped, h]

theorem stepped_of_none (h : turn.call? c = none) : turn.stepped c = turn.begun := by
  rw [stepped, h]

/-- The page of a call is the one that the handler works on. -/
theorem page?_of_call (h : turn.call? c = some (call, target)) : turn.page? c = some target.page := by
  obtain ⟨hhandler, htarget⟩ := call?_eq_some_iff.1 h
  obtain ⟨created, hresolve, -⟩ := (Cycle.target?_eq_some_iff.1 htarget).page.resolve
  rw [page?, hhandler, Handler.source?, Option.bind_some, hresolve]
  rfl

/-- Before a listener is called no page is touched. -/
theorem onlyReads_start (h : turn.call? c = some (call, target)) :
    turn.before.OnlyReads c (target.start c call) := by
  obtain ⟨-, htarget⟩ := call?_eq_some_iff.1 h
  obtain ⟨created, hresolve, -⟩ := (Cycle.target?_eq_some_iff.1 htarget).page.resolve
  have hfound := c.onlyReads_resolve call.page turn.begun
  rw [hresolve] at hfound
  have hbegun : turn.before.OnlyReads c turn.begun := .of_eq rfl rfl
  have hready := c.onlyReads_readyCall call target.page target.found
  exact ((hbegun.trans hfound).trans hready).trans (.of_eq rfl rfl)

/-- When its listener is done, a handler touches its page, if it succeeds and has one, and else none. -/
theorem exists_response (turn : Turn σ) (c : Cycle) : ∃ u, (turn.stepped c).OnlyReads c u ∧
    ((∃ e, turn.response c = (.error e, u)) ∨
      ∃ outcome, turn.response c = (.ok outcome, (turn.page? c).elim u u.touch)) := by
  cases hcall : turn.call? c with
  | some called =>
    obtain ⟨call, target⟩ := called
    obtain ⟨u, htouched, hstore, hended⟩ := c.endCall_eq call target.page
      (target.found.page target.page).frozen ((target.listener call.interface).run c (target.start c call))
    rw [← response_of_call hcall] at hended
    rw [stepped_of_call hcall, page?_of_call hcall, hended]
    refine ⟨u, .of_eq htouched hstore, ?_⟩
    cases ((target.listener call.interface).run c (target.start c call)).1 with
    | error e => exact .inl ⟨e, rfl⟩
    | ok => exact .inr ⟨_, rfl⟩
  | none =>
    rw [stepped_of_none hcall, page?, response]
    rw [call?] at hcall
    generalize turn.begun = begun at hcall ⊢
    cases hhandler : turn.handler with
    | render source policy =>
      have hresolve := c.onlyReads_resolve source begun
      rw [Handler.source?, Option.bind_some, Cycle.respond, Cycle.render]
      generalize c.resolve source begun = resolved at hresolve
      obtain ⟨e | r, t⟩ := resolved
      · exact ⟨t, hresolve, .inl ⟨e, rfl⟩⟩
      · exact ⟨t, hresolve, .inr ⟨_, rfl⟩⟩
    | bookmarkable pageClass p =>
      have hcreate := c.onlyReads_create pageClass p begun
      have hresolve : c.resolve (.ofClass pageClass p) begun =
          ((c.create pageClass p begun).1.map fun page => { page, created := true },
            (c.create pageClass p begun).2) := rfl
      rw [Handler.source?, Option.bind_some, hresolve, Cycle.respond, Cycle.renderNew]
      generalize c.create pageClass p begun = created at hcreate
      obtain ⟨e | page, t⟩ := created
      · exact ⟨t, hcreate, .inl ⟨e, rfl⟩⟩
      · exact ⟨t, hcreate, .inr ⟨_, rfl⟩⟩
    | listener call =>
      rw [hhandler] at hcall
      obtain ⟨u, hreads, ⟨e, hfails⟩ | ⟨outcome, page, hpage, hok⟩⟩ :=
        Cycle.call_of_none (Option.map_eq_none_iff.1 hcall)
      · exact ⟨u, hreads, .inl ⟨e, hfails⟩⟩
      · rw [Handler.source?, Option.bind_some, hpage]
        exact ⟨u, hreads, .inr ⟨outcome, hok⟩⟩
    | resource | buffered | redirect => exact ⟨begun, .of_eq rfl rfl, .inr ⟨_, rfl⟩⟩

/-- So in a turn at most one page is touched when the listener is done, and the store is only read. -/
theorem exists_ended (turn : Turn σ) (c : Cycle) : ∃ u, (turn.stepped c).OnlyReads c u ∧
    (turn.ended c).2 = (turn.lastTouched? c).elim u u.touch := by
  obtain ⟨u, hreads, ⟨e, hfails⟩ | ⟨outcome, hok⟩⟩ := turn.exists_response c
  · rw [ended, lastTouched?, hfails]
    cases e with
    | stale id expected actual =>
      have hfind := c.onlyReads_find id { u with queue := [] }
      have hdropped : u.OnlyReads c { u with queue := [] } := .of_eq rfl rfl
      rw [Cycle.settle]
      dsimp only
      generalize c.find id { u with queue := [] } = found at hfind
      obtain ⟨_ | page, t⟩ := found <;> exact ⟨t, (hreads.trans hdropped).trans hfind, rfl⟩
    | expired id => exact ⟨{ u with queue := [] }, hreads.trans (.of_eq rfl rfl), rfl⟩
    | _ => exact ⟨u, hreads, rfl⟩
  · rw [ended, lastTouched?, hok]
    exact ⟨u, hreads, rfl⟩

end Turn

/-! ## What is left to be stored -/

/-- A page that is touched, and the state in which it is. -/
structure Touch (σ : Type) where
  page : PageRef
  state : CycleState σ

namespace Touch

variable {touches : List (Touch σ)}

omit [SessionStore σ]

/-- Indicates a page that has the id of the page that is touched. -/
def replaces (x : Touch σ) (page : PageRef) : Bool :=
  (x.state.page page).id = (x.state.page x.page).id

/-- The pages that are left to be stored of those that have been touched, in the order of their last
touches: a page is left unless it has been replaced by a later one. -/
def kept : List (Touch σ) → List PageRef
  | [] => []
  | x :: later => if later.any (·.replaces x.page) then kept later else x.page :: kept later

theorem replaces_self (x : Touch σ) : x.replaces x.page = true :=
  decide_eq_true rfl

theorem kept_concat (touches : List (Touch σ)) (x : Touch σ) :
    kept (touches ++ [x]) = (kept touches).filter (!x.replaces ·) ++ [x.page] := by
  induction touches with
  | nil => rfl
  | cons y touches ih =>
    rw [List.cons_append, kept, kept, ih, List.any_append, List.any_cons, List.any_nil, Bool.or_false]
    cases touches.any (·.replaces y.page) with
    | true => rfl
    | false => cases hx : x.replaces y.page <;> simp [hx]

theorem subset_kept (touches : List (Touch σ)) : kept touches ⊆ touches.map (·.page) := by
  induction touches with
  | nil => exact List.Subset.refl _
  | cons x touches ih =>
    rw [kept, List.map_cons]
    split
    · exact List.subset_cons_of_subset _ ih
    · exact List.cons_subset_cons _ ih

/-- What is left is left once. -/
theorem nodup_kept (touches : List (Touch σ)) : (kept touches).Nodup := by
  induction touches with
  | nil => exact List.nodup_nil
  | cons x touches ih =>
    rw [kept]
    split
    · exact ih
    · rename_i hany
      refine List.nodup_cons.2 ⟨fun hmem => hany ?_, ih⟩
      obtain ⟨y, hy, heq⟩ := List.mem_map.1 (subset_kept touches hmem)
      exact List.any_eq_true.2 ⟨y, hy, heq ▸ y.replaces_self⟩

/-- To touch a page is to put it in the place of those that it replaces. -/
theorem touched_touch {s u : CycleState σ} {ref : PageRef} (hpages : u.pages = s.pages)
    (h : s.touched = kept touches) :
    (s.touch ref).touched = kept (touches ++ [{ page := ref, state := u }]) := by
  have hreplaces : ∀ p,
      replaces { page := ref, state := u } p = decide ((s.page p).id = (s.page ref).id) := by
    intro p
    rw [replaces, CycleState.page, CycleState.page, hpages]
    rfl
  rw [kept_concat, CycleState.touch, ← h]
  simp only [hreplaces, decide_not, ne_eq]

/-- The pages that have been touched after a step of a program, since pages were stored or the session was
cleared. -/
def after (touches : List (Touch σ)) : Program × CycleState σ → List (Touch σ)
  | (.touch ref _, s) => touches ++ [{ page := ref, state := s }]
  | (.commit _, _) | (.clear _, _) => []
  | _ => touches

end Touch

namespace Program

variable {c : Cycle} {p q : Program} {s t : CycleState σ} {touches : List (Touch σ)}

theorem touched_of_step? (h : p.step? c s = some (q, t)) (hs : s.touched = Touch.kept touches) :
    t.touched = Touch.kept (Touch.after touches (p, s)) := by
  cases p <;> cases h
  case find id _ => exact (c.onlyReads_find id s).touched.trans hs
  case create pageClass p _ => exact (c.onlyReads_create pageClass p s).touched.trans hs
  case touch => exact Touch.touched_touch rfl hs
  case commit =>
    obtain ⟨store, hcommit⟩ := c.commit_eq s
    rw [hcommit]
    rfl
  case clear => rfl
  all_goals exact hs

theorem touched_run (p : Program) (hs : s.touched = Touch.kept touches) :
    (p.run c s).2.touched = Touch.kept ((p.steps c s).foldl Touch.after touches) := by
  induction p, s using @Program.induct σ _ c generalizing touches with
  | ended p s hended =>
    rw [run_of_ended hended, steps_of_ended hended]
    cases p <;> cases hended <;> exact hs
  | stepped p s q t hstep ih =>
    rw [run_of_step? hstep, steps_of_step? hstep, List.foldl_cons]
    exact ih (touched_of_step? hstep hs)

end Program

namespace Turn

variable {c : Cycle} {touches : List (Touch σ)}

/-- The pages that have been touched when a turn is over. -/
def touchedAfter (turn : Turn σ) (c : Cycle) (touches : List (Touch σ)) : List (Touch σ) :=
  (turn.steps c).foldl Touch.after touches ++
    ((turn.lastTouched? c).map fun page => { page, state := (turn.ended c).2 }).toList

theorem touched_stepped (turn : Turn σ) (c : Cycle) (h : turn.before.touched = Touch.kept touches) :
    (turn.stepped c).touched = Touch.kept ((turn.steps c).foldl Touch.after touches) := by
  rw [steps]
  cases hcall : turn.call? c with
  | some called =>
    obtain ⟨call, target⟩ := called
    rw [stepped_of_call hcall]
    exact Program.touched_run _ ((onlyReads_start hcall).touched.trans h)
  | none =>
    rw [stepped_of_none hcall]
    exact h

theorem touched_ended (turn : Turn σ) (c : Cycle) (h : turn.before.touched = Touch.kept touches) :
    (turn.ended c).2.touched = Touch.kept (turn.touchedAfter c touches) := by
  obtain ⟨u, hreads, hended⟩ := turn.exists_ended c
  have hu := hreads.touched.trans (turn.touched_stepped c h)
  rw [touchedAfter]
  cases hlast : turn.lastTouched? c with
  | none =>
    rw [hlast] at hended
    rw [hended, Option.map_none, Option.toList_none, List.append_nil]
    exact hu
  | some page =>
    rw [hlast] at hended
    rw [hended]
    exact Touch.touched_touch rfl hu

end Turn

namespace Cycle

variable {c : Cycle}

/-- The pages that have been touched when the turns of a request are over. -/
def touches (c : Cycle) (n : Nat) (s : CycleState σ) : List (Touch σ) :=
  (c.turns n s).foldl (fun touches turn => turn.touchedAfter c touches) []

/-- What is left to be stored at the end of a request are the pages that have been touched and not been
replaced since. -/
theorem touched_endOf (c : Cycle) (n : Nat) {s : CycleState σ} (h : s.touched = []) :
    (c.endOf (c.turns n s) s).touched = Touch.kept (c.touches n s) :=
  endOf_induct (motive := fun touches t => t.touched = Touch.kept touches) (fun _ _ _ _ h => h)
    (fun _ turn => turn.touched_ended c) n h

end Cycle

end StatefulPages
