import StatefulPages.Proofs.Cycle.Programs

/-!
# The turns of handlers

Each handler runs in a turn of its own, which begins with `Event.started`. What happened is never
forgotten, so the trace of a request consists of the turns one after another.

* `Cycle.trace_prefix_respond`: a turn only adds to the trace;
* `Cycle.turnsTo_goOn`: the turn of the first handler of a request is over before others begin;
* `Cycle.callOn_eq`: how a listener is called on a component that has it.
-/

namespace StatefulPages

/-- Indicates that a handler begins. -/
def Event.isStart : Event → Bool
  | started _ => true
  | _ => false

variable {σ : Type}

namespace CycleState

variable {s t u : CycleState σ}

/-- From one state to another, the turn of a handler ends without a call, and then other handlers may
have their turns. -/
def TurnsTo (s t : CycleState σ) : Prop :=
  ∃ rest later, t.trace = s.trace ++ (rest ++ later) ∧ (∀ e ∈ rest, e.isQuiet = true) ∧
    ∀ e ∈ later.head?, e.isStart = true

theorem QuietTo.isPrefix_trace (h : s.QuietTo t) : s.trace <+: t.trace := by
  obtain ⟨events, htrace, -⟩ := h
  exact ⟨events, htrace.symm⟩

theorem TurnsTo.isPrefix_trace (h : s.TurnsTo t) : s.trace <+: t.trace := by
  obtain ⟨rest, later, htrace, -⟩ := h
  exact ⟨rest ++ later, htrace.symm⟩

theorem QuietTo.turnsTo (h : s.QuietTo t) : s.TurnsTo t := by
  obtain ⟨events, htrace, hquiet⟩ := h
  exact ⟨events, [], by rw [htrace, List.append_nil], hquiet, by simp⟩

theorem turnsTo_of_started {h : Handler} (hstarted : s.trace ++ [.started h] <+: t.trace) :
    s.TurnsTo t := by
  obtain ⟨events, htrace⟩ := hstarted
  refine ⟨[], .started h :: events, ?_, ?_, ?_⟩
  · rw [← htrace, List.append_assoc]
    rfl
  · intro e he
    cases he
  · intro e he
    cases he
    rfl

theorem QuietTo.trans_turnsTo (hst : s.QuietTo t) (htu : t.TurnsTo u) : s.TurnsTo u := by
  obtain ⟨events, hfirst, hquiet⟩ := hst
  obtain ⟨rest, later, hsecond, hrest, hlater⟩ := htu
  refine ⟨events ++ rest, later, ?_, ?_, hlater⟩
  · rw [hsecond, hfirst]
    simp only [List.append_assoc]
  · intro e he
    exact (List.mem_append.1 he).elim (hquiet e) (hrest e)

theorem TurnsTo.trans_quietTo (hst : s.TurnsTo t) (htu : t.QuietTo u) : s.TurnsTo u := by
  obtain ⟨rest, later, hfirst, hrest, hlater⟩ := hst
  cases later with
  | nil =>
    have hquiet : s.QuietTo t := ⟨rest, by rw [hfirst, List.append_nil], hrest⟩
    exact (hquiet.trans htu).turnsTo
  | cons e later =>
    obtain ⟨events, hsecond, -⟩ := htu
    refine ⟨rest, e :: later ++ events, ?_, hrest, hlater⟩
    rw [hsecond, hfirst]
    simp only [List.append_assoc]

end CycleState

namespace Cycle

variable (c : Cycle) (s : CycleState σ)

/-! ## The trace of a turn -/

theorem trace_createFor (source : PageSource) : (c.createFor source s).2.trace = s.trace := by
  rw [createFor]
  split
  · rfl
  · exact c.trace_create s _ _

theorem trace_renderNew (pageClass : PageClass) (p : Parameters) :
    (c.renderNew pageClass p s).2.trace = s.trace := by
  have hcreate := c.trace_create s pageClass p
  rw [renderNew]
  generalize c.create pageClass p s = created at hcreate
  obtain ⟨_ | _, t⟩ := created <;> exact hcreate

theorem quietTo_scheduleRender (call : ListenerCall) (page : PageRef) :
    s.QuietTo (c.scheduleRender call page s) := by
  rw [scheduleRender]
  split
  · exact s.quietTo_schedule _
  · exact .of_trace_eq rfl

variable [SessionStore σ]

theorem trace_resolve (source : PageSource) : (c.resolve source s).2.trace = s.trace := by
  rw [resolve]
  split
  · rfl
  · exact c.trace_createFor s source
  · rename_i id _ _
    have hfind := c.trace_find s id
    generalize c.find id s = found at hfind
    obtain ⟨found, t⟩ := found
    dsimp only at hfind ⊢
    split
    · split <;> exact hfind
    · split
      · exact hfind
      · rw [trace_createFor, hfind]

theorem trace_render (source : PageSource) (policy : RedirectPolicy) :
    (c.render source policy s).2.trace = s.trace := by
  have hresolve := c.trace_resolve s source
  rw [render]
  generalize c.resolve source s = resolved at hresolve
  obtain ⟨_ | _, t⟩ := resolved <;> exact hresolve

theorem trace_prefix_runListener (call : ListenerCall) (page : PageRef) (listener : Listener) :
    s.trace <+: (c.runListener call page listener s).2.trace := by
  let begun := s.record
    (.called page (s.page page).id call.path call.behavior call.interface (s.page page).frozen)
  have hrun := ((listener call.interface).quietTo_run c begun).isPrefix_trace
  exact (List.prefix_append _ _).trans hrun

theorem trace_prefix_invoke (call : ListenerCall) (page : PageRef) (component : Component) :
    s.trace <+: (c.invoke call page component s).2.trace := by
  rw [invoke]
  split
  · exact c.trace_prefix_runListener s call page _
  · split
    · exact c.trace_prefix_runListener s call page _
    · exact List.prefix_rfl

theorem trace_prefix_invokeFrozen (call : ListenerCall) (page : PageRef) (component : Component) :
    s.trace <+: (c.invokeFrozen call page component s).2.trace := by
  rw [invokeFrozen]
  split
  · have hfreeze := (s.quietTo_freeze page true).isPrefix_trace
    have hinvoke := c.trace_prefix_invoke (s.freeze page true).2 call page component
    exact (hfreeze.trans hinvoke).trans (CycleState.quietTo_freeze _ page _).isPrefix_trace
  · exact c.trace_prefix_invoke s call page component

theorem trace_prefix_callOn (call : ListenerCall) (page : PageRef) :
    s.trace <+: (c.callOn call page s).2.trace := by
  rw [callOn]
  split
  · exact List.prefix_rfl
  · rename_i component _
    split
    · exact List.prefix_rfl
    · have hinvoke := (c.quietTo_scheduleRender s call page).isPrefix_trace.trans
        (c.trace_prefix_invokeFrozen (c.scheduleRender call page s) call page component)
      generalize c.invokeFrozen call page component (c.scheduleRender call page s) = invoked at hinvoke
      obtain ⟨_ | _, t⟩ := invoked <;> exact hinvoke

theorem trace_prefix_call (call : ListenerCall) : s.trace <+: (c.call call s).2.trace := by
  have hresolve := c.trace_resolve s call.page
  rw [Cycle.call, ← hresolve]
  generalize c.resolve call.page s = resolved
  obtain ⟨_ | r, t⟩ := resolved
  · exact List.prefix_rfl
  · dsimp only
    split
    · exact List.prefix_rfl
    · exact c.trace_prefix_callOn t call r.page

/-- A handler only adds to the trace. -/
theorem trace_prefix_respond (h : Handler) : s.trace <+: (c.respond h s).2.trace := by
  cases h with
  | render source policy => exact (c.trace_render s source policy).symm ▸ List.prefix_rfl
  | bookmarkable pageClass p => exact (c.trace_renderNew s pageClass p).symm ▸ List.prefix_rfl
  | listener call => exact c.trace_prefix_call s call
  | resource | buffered | redirect => exact List.prefix_rfl

theorem trace_settle (turn : Except Failure Outcome × CycleState σ) :
    (c.settle turn).2.trace = turn.2.trace := by
  obtain ⟨result, t⟩ := turn
  cases result with
  | ok => rfl
  | error e =>
    cases e with
    | stale id expected actual =>
      have hfind := c.trace_find { t with queue := [] } id
      rw [settle]
      generalize c.find id { t with queue := [] } = found at hfind
      obtain ⟨_ | _, u⟩ := found <;> exact hfind
    | _ => rfl

/-- The turn of a handler begins with the handler. -/
theorem trace_prefix_runHandler (h : Handler) :
    s.trace ++ [.started h] <+: (c.runHandler h s).2.trace := by
  rw [runHandler, trace_settle]
  exact c.trace_prefix_respond (s.record (.started h)) h

/-! ## The turns of a request -/

/-- What follows the turn of the first handler of a request: the turns of those that wait, up to `n`. -/
def following (c : Cycle) (n : Nat) (turn : Except Failure Outcome × CycleState σ) :
    Option (Except Failure Outcome × CycleState σ) :=
  match c.settle turn with
  | (.ok outcome, s) => c.runQueue n outcome s
  | (.error e, s) => some (.error e, s)

/-- What follows the turn of the first handler of a request, up to its end. -/
def goOn (c : Cycle) (n : Nat) (turn : Except Failure Outcome × CycleState σ) :
    Option (Except Failure Outcome × CycleState σ) :=
  (c.following n turn).bind c.conclude

/-- A request for a handler runs it and what follows. -/
theorem runHandlers_eq_following {h : Handler} {buffer : Buffer}
    (hdecode : c.mapper.decode s.buffer c.request = (some h, buffer)) (n : Nat) :
    c.runHandlers n s = c.following n (c.respond h ({ s with buffer }.record (.started h))) := by
  rw [runHandlers, hdecode]
  rfl

/-- So it is the turn of the handler and what follows, up to the end. -/
theorem process_eq_goOn {h : Handler} {buffer : Buffer}
    (hdecode : c.mapper.decode s.buffer c.request = (some h, buffer)) (n : Nat) :
    c.process n s = c.goOn n (c.respond h ({ s with buffer }.record (.started h))) := by
  rw [process, runHandlers_eq_following c s hdecode, goOn]

/-- A request gives the result of its handlers, and is committed, unless one of them panicked. -/
theorem conclude_eq_some_iff {ended : Except Failure Outcome × CycleState σ}
    {result : Except Failure Outcome} {t : CycleState σ} :
    c.conclude ended = some (result, t) ↔
      isPanicked ended.1 = false ∧ result = ended.1 ∧ t = c.finish ended.2 := by
  obtain ⟨result', s⟩ := ended
  rw [conclude]
  cases isPanicked result' with
  | false => simp [eq_comm]
  | true => simp

/-- A handler that is the last one ends the request. -/
theorem goOn_of_settle {turn : Except Failure Outcome × CycleState σ} {outcome : Outcome}
    {t : CycleState σ} (hsettle : c.settle turn = (.ok outcome, t)) (hqueue : t.queue = []) (n : Nat) :
    c.goOn n turn = some (.ok outcome, c.finish t) := by
  have hrun : c.runQueue n outcome t = some (.ok outcome, t) := by
    rw [runQueue]
    exact hqueue
  rw [goOn, following, hsettle]
  exact congrArg (·.bind c.conclude) hrun

/-- A page that has changed is rendered, and handlers that wait are dropped. -/
theorem settle_of_stale {id : PageId} {ref : PageRef} {t : CycleState σ}
    (hfind : c.find id { s with queue := [] } = (some ref, t)) (expected actual : UInt32) :
    c.settle (.error (.stale id expected actual), s) =
      (.ok (.rendered (t.page ref).id (t.page ref).pageClass .auto), t.touch ref) := by
  rw [settle, hfind]
  rfl

/-- Handlers that wait have turns of their own. -/
theorem turnsTo_runQueue {n : Nat} {outcome : Outcome} {result : Except Failure Outcome}
    {s t : CycleState σ} (hrun : c.runQueue n outcome s = some (result, t)) : s.TurnsTo t := by
  fun_induction Cycle.runQueue c n outcome s with
  | case1 n outcome s hqueue =>
    cases hrun
    exact (CycleState.QuietTo.of_trace_eq rfl).turnsTo
  | case2 => cases hrun
  | case3 outcome s n h queue hqueue outcome' u hturn ih =>
    have hstarted := c.trace_prefix_runHandler { s with queue } h
    rw [hturn] at hstarted
    exact CycleState.turnsTo_of_started (hstarted.trans (ih hrun).isPrefix_trace)
  | case4 outcome s n h queue hqueue e u hturn =>
    have hstarted := c.trace_prefix_runHandler { s with queue } h
    rw [hturn] at hstarted
    cases hrun
    exact CycleState.turnsTo_of_started hstarted

theorem quietTo_finish : s.QuietTo (c.finish s) :=
  (CycleState.QuietTo.of_trace_eq (c.trace_commit s)).trans (CycleState.quietTo_record _ rfl)

/-- The turn of the first handler is over before others have theirs. -/
theorem turnsTo_goOn {n : Nat} {turn : Except Failure Outcome × CycleState σ}
    {result : Except Failure Outcome} {t : CycleState σ}
    (hrun : c.goOn n turn = some (result, t)) : turn.2.TurnsTo t := by
  obtain ⟨ended, hfollowing, hconclude⟩ := Option.bind_eq_some_iff.1 hrun
  obtain ⟨-, -, rfl⟩ := c.conclude_eq_some_iff.1 hconclude
  have hsettle := c.trace_settle turn
  rw [following] at hfollowing
  generalize c.settle turn = settled at hfollowing hsettle
  have hquiet : turn.2.QuietTo settled.2 := .of_trace_eq hsettle
  obtain ⟨_ | outcome, u⟩ := settled
  · cases hfollowing
    exact (hquiet.trans (c.quietTo_finish u)).turnsTo
  · exact (hquiet.trans_turnsTo (c.turnsTo_runQueue hfollowing)).trans_quietTo (c.quietTo_finish ended.2)

end Cycle

/-! ## Calls of listeners -/

/-- The listener of a component, or of one of its behaviors. -/
def Component.listener? (component : Component) : Option Nat → Option Listener
  | none => some component.listener
  | some index => component.behaviors[index]?

namespace Cycle

variable {c : Cycle} {s : CycleState σ} {call : ListenerCall} {page : PageRef}

/-- The state in which a listener is called: the rendering of the page is scheduled if it is to follow,
and the page keeps its id during a request of a script. -/
def readyCall (c : Cycle) (call : ListenerCall) (page : PageRef) (s : CycleState σ) : CycleState σ :=
  let s := c.scheduleRender call page s
  if c.request.isAjax then (s.freeze page true).2 else s

/-- What becomes of a call when the listener is done: the page keeps its id no longer than it did. -/
def endCall (c : Cycle) (call : ListenerCall) (page : PageRef) (wasFrozen : Bool)
    (result : Except Failure Unit × CycleState σ) : Except Failure Outcome × CycleState σ :=
  let s := if c.request.isAjax then (result.2.freeze page wasFrozen).2 else result.2
  match result.1 with
  | .ok _ => (.ok (.called (s.page page).id call.path), s.touch page)
  | .error e => (.error e, s)

theorem page_scheduleRender (c : Cycle) (call : ListenerCall) (page : PageRef) (s : CycleState σ) :
    (c.scheduleRender call page s).page page = s.page page := by
  rw [scheduleRender]
  split <;> rfl

theorem page_readyCall (c : Cycle) (call : ListenerCall) (page : PageRef) (s : CycleState σ) :
    (c.readyCall call page s).page page =
      { s.page page with frozen := c.request.isAjax || (s.page page).frozen } := by
  have hpage := c.page_scheduleRender call page s
  rw [readyCall]
  cases c.request.isAjax with
  | false => exact hpage
  | true =>
    rw [← hpage]
    exact Heap.get_set_self ..

theorem quietTo_readyCall (c : Cycle) (call : ListenerCall) (page : PageRef) (s : CycleState σ) :
    s.QuietTo (c.readyCall call page s) := by
  have hschedule := c.quietTo_scheduleRender s call page
  rw [readyCall]
  cases c.request.isAjax with
  | false => exact hschedule
  | true => exact hschedule.trans (CycleState.quietTo_freeze _ page true)

theorem quietTo_endCall (c : Cycle) (call : ListenerCall) (page : PageRef) (wasFrozen : Bool)
    (result : Except Failure Unit × CycleState σ) :
    result.2.QuietTo (c.endCall call page wasFrozen result).2 := by
  have hquiet : result.2.QuietTo
      (if c.request.isAjax then (result.2.freeze page wasFrozen).2 else result.2) := by
    split
    · exact result.2.quietTo_freeze page wasFrozen
    · exact .of_trace_eq rfl
  rw [endCall]
  cases result.1 with
  | ok => exact hquiet.trans (.of_trace_eq rfl)
  | error => exact hquiet

variable [SessionStore σ]

theorem invoke_eq {component : Component} {listener : Listener}
    (hlistener : component.listener? call.behavior = some listener) (s : CycleState σ) :
    c.invoke call page component s = c.runListener call page listener s := by
  rw [invoke]
  cases hbehavior : call.behavior with
  | none =>
    rw [hbehavior] at hlistener
    cases hlistener
    rfl
  | some index =>
    rw [hbehavior] at hlistener
    dsimp only
    rw [show component.behaviors[index]? = some listener from hlistener]

/-- A listener is called on the component that has it, or on the behavior. -/
theorem callOn_eq {component : Component} {listener : Listener}
    (hcomponent : c.application.component? s.pages page call.path = some component)
    (howner : component.owner = some (s.page page).id)
    (hlistener : component.listener? call.behavior = some listener) :
    c.callOn call page s = c.endCall call page (s.page page).frozen
      (c.runListener call page listener (c.readyCall call page s)) := by
  have hpage := c.page_scheduleRender call page s
  rw [callOn, hcomponent]
  dsimp only
  rw [if_neg (not_not_intro howner), invokeFrozen, readyCall, endCall]
  generalize c.scheduleRender call page s = scheduled at hpage
  cases c.request.isAjax with
  | true =>
    have hprevious : (scheduled.freeze page true).1 = (s.page page).frozen :=
      congrArg Page.frozen hpage
    simp only [if_true, invoke_eq hlistener, hprevious]
    generalize c.runListener call page listener (scheduled.freeze page true).2 = called
    obtain ⟨_ | _, t⟩ := called <;> rfl
  | false =>
    simp only [Bool.false_eq_true, if_false, invoke_eq hlistener]
    generalize c.runListener call page listener scheduled = called
    obtain ⟨_ | _, t⟩ := called <;> rfl

end Cycle

end StatefulPages
