import StatefulPages.Proofs.Cycle.Targets

/-!
# The events of a turn

A turn is a handler with the state in which it begins. What happens in it stands in the trace, and the
handlers that wait afterwards are those that waited before and those that were scheduled in it.

* `CycleState.Works`: the events of what is done between a beginning, a call and an end;
* `Turn.leaves_of_call`, `Turn.leaves_of_none`: what a turn leaves in the trace and which handlers wait
  then, if its handler reaches a listener and if it does not;
* `Turn.events_eq_cons`: a turn begins with its handler, and has no call but the one that this makes.
-/

namespace StatefulPages

/-- Indicates that a listener is called. -/
def Event.isCall : Event → Bool
  | called .. => true
  | _ => false

/-- The handler that an event schedules. -/
def Event.scheduled? : Event → Option Handler
  | scheduled h => some h
  | _ => none

/-- The handlers that are scheduled, in order. -/
def scheduledIn (events : List Event) : List Handler :=
  events.filterMap Event.scheduled?

@[simp] theorem scheduledIn_nil : scheduledIn [] = [] := rfl

@[simp] theorem scheduledIn_cons (e : Event) (events : List Event) :
    scheduledIn (e :: events) = e.scheduled?.toList ++ scheduledIn events := by
  cases h : e.scheduled? <;> simp [scheduledIn, h]

@[simp] theorem scheduledIn_append (first second : List Event) :
    scheduledIn (first ++ second) = scheduledIn first ++ scheduledIn second :=
  List.filterMap_append

variable {σ : Type}

/-- The handler that a program schedules with a step. -/
def Program.scheduled? : Program × CycleState σ → Option Handler
  | (.schedule h _, _) => some h
  | _ => none

namespace Cycle

/-- Indicates what happens between a beginning, a call and an end: handlers are scheduled, notes are taken,
and pages are told whether to keep their ids if a script made the request. -/
def records (c : Cycle) : Event → Bool
  | .scheduled _ | .noted _ => true
  | .froze .. => c.request.isAjax
  | _ => false

end Cycle

namespace CycleState

/-- From one state to another, only such events happen, and the handlers that they schedule wait behind
the others. -/
structure Works (c : Cycle) (s : CycleState σ) (events : List Event) (t : CycleState σ) : Prop where
  trace : t.trace = s.trace ++ events
  queue : t.queue = s.queue ++ scheduledIn events
  records : ∀ e ∈ events, c.records e = true

variable {c : Cycle} {s t u : CycleState σ} {first second : List Event}

theorem Works.of_eq (htrace : t.trace = s.trace) (hqueue : t.queue = s.queue) : s.Works c [] t :=
  ⟨by rw [htrace, List.append_nil], by rw [hqueue, scheduledIn_nil, List.append_nil], by simp⟩

theorem Works.trans (hst : s.Works c first t) (htu : t.Works c second u) :
    s.Works c (first ++ second) u where
  trace := by rw [htu.trace, hst.trace, List.append_assoc]
  queue := by rw [htu.queue, hst.queue, scheduledIn_append, List.append_assoc]
  records e he := (List.mem_append.1 he).elim (hst.records e) (htu.records e)

theorem works_schedule (c : Cycle) (s : CycleState σ) (h : Handler) :
    s.Works c [.scheduled h] (s.schedule h) :=
  ⟨rfl, rfl, fun e he => by rw [List.mem_singleton.1 he]; rfl⟩

theorem works_freeze (s : CycleState σ) (hajax : c.request.isAjax = true) (page : PageRef)
    (frozen : Bool) :
    s.Works c [.froze page (s.page page).id frozen (s.page page).frozen] (s.freeze page frozen).2 where
  trace := rfl
  queue := by simp [freeze, record, Event.scheduled?]
  records e he := by rw [List.mem_singleton.1 he]; exact hajax

theorem works_note (c : Cycle) (s : CycleState σ) (n : Note) :
    s.Works c [.noted n] (s.record (.noted n)) where
  trace := rfl
  queue := by simp [record, Event.scheduled?]
  records e he := by rw [List.mem_singleton.1 he]; rfl

end CycleState

variable [SessionStore σ]

namespace Cycle

theorem queue_find (c : Cycle) (id : PageId) (s : CycleState σ) : (c.find id s).2.queue = s.queue := by
  rw [find]
  split
  · rfl
  · split
    split <;> rfl

omit [SessionStore σ] in
theorem queue_create (c : Cycle) (pageClass : PageClass) (p : Parameters) (s : CycleState σ) :
    (c.create pageClass p s).2.queue = s.queue := by
  rw [create]
  split <;> rfl

/-- To store a page changes the store. -/
theorem storePage_eq (c : Cycle) (s : CycleState σ) (ref : PageRef) :
    ∃ store, c.storePage s ref = { s with store } := by
  rw [storePage]
  split
  · exact ⟨s.store, rfl⟩
  · split
    · exact ⟨_, rfl⟩
    · exact ⟨s.store, rfl⟩

/-- A commit changes the store, and nothing is left to be stored. -/
theorem commit_eq (c : Cycle) (s : CycleState σ) :
    ∃ store, c.commit s = { s with touched := [], store } := by
  have hfold : ∀ (refs : List PageRef) (t : CycleState σ),
      ∃ store, refs.foldl c.storePage t = { t with store } := by
    intro refs
    induction refs with
    | nil => exact fun t => ⟨t.store, rfl⟩
    | cons ref refs ih =>
      intro t
      obtain ⟨store, hstore⟩ := c.storePage_eq t ref
      obtain ⟨last, hlast⟩ := ih { t with store }
      exact ⟨last, by rw [List.foldl_cons, hstore, hlast]⟩
  exact hfold s.touched _

theorem queue_commit (c : Cycle) (s : CycleState σ) : (c.commit s).queue = s.queue := by
  obtain ⟨store, hcommit⟩ := c.commit_eq s
  rw [hcommit]

variable {c : Cycle} {s t : CycleState σ}

theorem works_of_act (h : c.Act s t) : ∃ events, s.Works c events t := by
  cases h with
  | find id => exact ⟨[], .of_eq (c.trace_find s id) (c.queue_find id s)⟩
  | create pageClass p => exact ⟨[], .of_eq (c.trace_create s pageClass p) (c.queue_create pageClass p s)⟩
  | touch page => exact ⟨[], .of_eq rfl rfl⟩
  | schedule h => exact ⟨_, s.works_schedule c h⟩
  | freeze hajax page frozen => exact ⟨_, s.works_freeze hajax page frozen⟩

theorem works_of_acts (h : c.Acts s t) : ∃ events, s.Works c events t := by
  induction h with
  | refl => exact ⟨[], .of_eq rfl rfl⟩
  | tail _ hact ih =>
    obtain ⟨first, hfirst⟩ := ih
    obtain ⟨second, hsecond⟩ := works_of_act hact
    exact ⟨first ++ second, hfirst.trans hsecond⟩

/-- Where nothing happens, nothing is scheduled. -/
theorem works_of_trace_eq (h : c.Acts s t) (htrace : t.trace = s.trace) : s.Works c [] t := by
  obtain ⟨events, hworks⟩ := works_of_acts h
  have hnil : events = [] := List.append_cancel_left (by rw [← hworks.trace, htrace, List.append_nil])
  rwa [hnil] at hworks

/-- To find a page is no event. -/
theorem Finds.works {source : PageSource} {page : PageRef} {found : CycleState σ}
    (h : c.Finds source s page found) : s.Works c [] found := by
  obtain ⟨created, hresolve, -⟩ := h.resolve
  have hacts := c.acts_resolve s source
  have htrace := c.trace_resolve s source
  rw [hresolve] at hacts htrace
  exact works_of_trace_eq hacts htrace

/-- Nor is it one to deal with a page that is gone or has changed. -/
theorem works_settle (c : Cycle) (turn : Except Failure Outcome × CycleState σ) :
    (dropWaiting turn).Works c [] (c.settle turn).2 := by
  refine works_of_trace_eq (c.acts_settle turn) ?_
  rw [trace_settle, dropWaiting]
  split <;> rfl

end Cycle

namespace Program

variable {c : Cycle} {p q : Program} {s t : CycleState σ}

/-- A step schedules what it says. -/
theorem works_of_step? (h : p.step? c s = some (q, t)) :
    ∃ events, s.Works c events t ∧ scheduledIn events = (Program.scheduled? (p, s)).toList := by
  cases p <;> cases h
  case schedule h => exact ⟨_, s.works_schedule c h, rfl⟩
  case note n => exact ⟨_, s.works_note c n, rfl⟩
  case find id _ => exact ⟨[], .of_eq (c.trace_find s id) (c.queue_find id s), rfl⟩
  case create pageClass p _ =>
    exact ⟨[], .of_eq (c.trace_create s pageClass p) (c.queue_create pageClass p s), rfl⟩
  case commit => exact ⟨[], .of_eq (c.trace_commit s) (c.queue_commit s), rfl⟩
  all_goals exact ⟨[], .of_eq rfl rfl, rfl⟩

/-- A program schedules what its steps do. -/
theorem works_run (c : Cycle) (p : Program) (s : CycleState σ) :
    ∃ events, s.Works c events (p.run c s).2 ∧
      scheduledIn events = (p.steps c s).filterMap Program.scheduled? := by
  induction p, s using @Program.induct σ _ c with
  | ended p s hended =>
    refine ⟨[], .of_eq ?_ ?_, ?_⟩
    · rw [run_of_ended hended]
    · rw [run_of_ended hended]
    · rw [steps_of_ended hended]
      cases p <;> cases hended <;> rfl
  | stepped p s q t hstep ih =>
    obtain ⟨first, hfirst, hscheduled⟩ := works_of_step? hstep
    obtain ⟨second, hsecond, hscheduled'⟩ := ih
    refine ⟨first ++ second, ?_, ?_⟩
    · rw [run_of_step? hstep]
      exact hfirst.trans hsecond
    · rw [scheduledIn_append, hscheduled, hscheduled', steps_of_step? hstep]
      cases h : Program.scheduled? (p, s) <;> simp [h]

end Program

/-! ## Turns -/

/-- A handler in its turn. -/
structure Turn (σ : Type) where
  handler : Handler
  /-- The state in which the handler begins. It waits no more. -/
  before : CycleState σ

namespace Turn

omit [SessionStore σ] in
/-- The state in which the handler has begun. -/
def begun (turn : Turn σ) : CycleState σ :=
  turn.before.record (.started turn.handler)

/-- What the handler does. -/
def response (turn : Turn σ) (c : Cycle) : Except Failure Outcome × CycleState σ :=
  c.respond turn.handler turn.begun

/-- What comes of the turn, when a page that is gone or has changed has been dealt with. -/
def ended (turn : Turn σ) (c : Cycle) : Except Failure Outcome × CycleState σ :=
  c.settle (turn.response c)

/-- What happens in the turn. -/
def events (turn : Turn σ) (c : Cycle) : List Event :=
  (turn.response c).2.trace.drop turn.before.trace.length

/-- The call that the handler makes, with what it reaches. -/
def call? (turn : Turn σ) (c : Cycle) : Option (ListenerCall × Target σ) :=
  match turn.handler with
  | .listener call => (c.target? call turn.begun).map (call, ·)
  | _ => none

/-- The steps of the listener that is called in the turn. -/
def steps (turn : Turn σ) (c : Cycle) : List (Program × CycleState σ) :=
  match turn.call? c with
  | some (call, target) => (target.listener call.interface).steps c (target.start c call)
  | none => []

end Turn

/-- The event of a call that reaches a target. -/
def Target.event (target : Target σ) (c : Cycle) (call : ListenerCall) : Event :=
  let page := target.found.page target.page
  .called target.page page.id call.path call.behavior call.interface (c.request.isAjax || page.frozen)

/-- The rendering that is scheduled before a listener is called. -/
def Cycle.rendersFirst (c : Cycle) (call : ListenerCall) (page : PageRef) (s : CycleState σ) :
    List Handler :=
  if !c.request.isAjax && call.interface.rendersPage then
    [.render (.ofPage s.pages page) (if (s.page page).stateless then .never else .auto)]
  else []

omit [SessionStore σ] in
theorem Target.start_eq (target : Target σ) (c : Cycle) (call : ListenerCall) :
    target.start c call = (c.readyCall call target.page target.found).record (target.event c call) := by
  have hready := c.page_readyCall call target.page target.found
  rw [start, event, hready]

omit [SessionStore σ] in
theorem Cycle.works_readyCall (c : Cycle) (call : ListenerCall) (page : PageRef) (s : CycleState σ) :
    ∃ events, s.Works c events (c.readyCall call page s) ∧
      scheduledIn events = c.rendersFirst call page s := by
  have hschedule : ∃ events, s.Works c events (c.scheduleRender call page s) ∧
      scheduledIn events = c.rendersFirst call page s := by
    rw [scheduleRender, rendersFirst]
    split
    · exact ⟨_, s.works_schedule c _, rfl⟩
    · exact ⟨[], .of_eq rfl rfl, rfl⟩
  obtain ⟨first, hfirst, hscheduled⟩ := hschedule
  rw [readyCall]
  split
  · rename_i hajax
    have hfreeze := (c.scheduleRender call page s).works_freeze hajax page true
    exact ⟨_, hfirst.trans hfreeze, by rw [scheduledIn_append, hscheduled]; simp [Event.scheduled?]⟩
  · exact ⟨first, hfirst, hscheduled⟩

omit [SessionStore σ] in
theorem Cycle.works_endCall (c : Cycle) (call : ListenerCall) (page : PageRef) (wasFrozen : Bool)
    (result : Except Failure Unit × CycleState σ) :
    ∃ events, result.2.Works c events (c.endCall call page wasFrozen result).2 ∧
      scheduledIn events = [] := by
  have hfreeze : ∃ events, result.2.Works c events
      (if c.request.isAjax then (result.2.freeze page wasFrozen).2 else result.2) ∧
        scheduledIn events = [] := by
    split
    · rename_i hajax
      exact ⟨_, result.2.works_freeze hajax page wasFrozen, rfl⟩
    · exact ⟨[], .of_eq rfl rfl, rfl⟩
  obtain ⟨events, hworks, hscheduled⟩ := hfreeze
  refine ⟨events, ?_, hscheduled⟩
  rw [endCall]
  cases result.1 with
  | ok => exact ⟨hworks.trace, hworks.queue, hworks.records⟩
  | error => exact hworks

namespace Turn

variable {c : Cycle} {turn : Turn σ} {call : ListenerCall} {target : Target σ}

theorem call?_eq_some_iff : turn.call? c = some (call, target) ↔
    turn.handler = .listener call ∧ c.target? call turn.begun = some target := by
  rw [call?]
  split
  · rename_i called hhandler
    rw [hhandler, Option.map_eq_some_iff, Handler.listener.injEq]
    constructor
    · rintro ⟨reached, hreached, heq⟩
      cases heq
      exact ⟨rfl, hreached⟩
    · rintro ⟨rfl, hreached⟩
      exact ⟨target, hreached, rfl⟩
  · rename_i hother
    simpa using fun h => absurd h (hother call)

theorem steps_of_call (h : turn.call? c = some (call, target)) :
    turn.steps c = (target.listener call.interface).steps c (target.start c call) := by
  rw [steps, h]

theorem steps_of_none (h : turn.call? c = none) : turn.steps c = [] := by
  rw [steps, h]

/-- A handler that makes a call runs the listener that it reaches. -/
theorem response_of_call (h : turn.call? c = some (call, target)) :
    turn.response c = c.endCall call target.page (target.found.page target.page).frozen
      ((target.listener call.interface).run c (target.start c call)) := by
  obtain ⟨hhandler, htarget⟩ := call?_eq_some_iff.1 h
  rw [response, hhandler]
  exact Cycle.call_of_target htarget

/-- Before the listener begins, only request handling acts in the turn. -/
theorem acts_readyCall_of_call (h : turn.call? c = some (call, target)) :
    c.Acts turn.begun (c.readyCall call target.page target.found) := by
  obtain ⟨-, htarget⟩ := call?_eq_some_iff.1 h
  obtain ⟨created, hresolve, -⟩ := (Cycle.target?_eq_some_iff.1 htarget).page.resolve
  have hfound := c.acts_resolve turn.begun call.page
  rw [hresolve] at hfound
  exact hfound.trans (c.acts_readyCall target.found call target.page)

/-- When the listener is done, only request handling acts in the turn. -/
theorem acts_response_of_call (h : turn.call? c = some (call, target)) :
    c.Acts ((target.listener call.interface).run c (target.start c call)).2 (turn.response c).2 := by
  rw [response_of_call h]
  exact c.acts_endCall call target.page (target.found.page target.page).frozen _

/-- A handler that makes no call leaves the application alone. -/
theorem acts_response_of_none (h : turn.call? c = none) : c.Acts turn.begun (turn.response c).2 := by
  rw [response]
  cases hhandler : turn.handler with
  | render source policy => exact c.acts_render turn.begun source policy
  | bookmarkable pageClass p => exact c.acts_renderNew turn.begun pageClass p
  | listener call =>
    rw [call?, hhandler, Option.map_eq_none_iff] at h
    exact Cycle.acts_call_of_none h
  | resource | buffered | redirect => exact .refl

/-! ### What happens -/

/-- What a turn leaves behind: its events in the trace, and waiting handlers. -/
structure Leaves (turn : Turn σ) (c : Cycle) (events : List Event) : Prop where
  trace : (turn.response c).2.trace = turn.before.trace ++ events
  queue : (turn.response c).2.queue = turn.before.queue ++ scheduledIn events

theorem Leaves.events_eq {events : List Event} (h : turn.Leaves c events) : turn.events c = events := by
  rw [Turn.events, h.trace, List.drop_left]

/-- A turn in which a call is made begins with its handler. Then the call is made ready, the listener is
called, and what the listener schedules waits behind what was scheduled before it began. -/
theorem leaves_of_call (h : turn.call? c = some (call, target)) :
    ∃ ready rest, turn.Leaves c (.started turn.handler :: (ready ++ target.event c call :: rest)) ∧
      (∀ e ∈ ready ++ rest, c.records e = true) ∧
      scheduledIn ready = c.rendersFirst call target.page target.found ∧
      scheduledIn rest = (turn.steps c).filterMap Program.scheduled? := by
  obtain ⟨-, htarget⟩ := call?_eq_some_iff.1 h
  have hfound := (Cycle.target?_eq_some_iff.1 htarget).page.works
  obtain ⟨ready, hready, hfirst⟩ := c.works_readyCall call target.page target.found
  obtain ⟨own, hown, hscheduled⟩ := (target.listener call.interface).works_run c (target.start c call)
  obtain ⟨last, hlast, hnone⟩ := c.works_endCall call target.page
    (target.found.page target.page).frozen ((target.listener call.interface).run c (target.start c call))
  have hresponse := response_of_call h
  rw [← hresponse] at hlast
  have hrest := hown.trans hlast
  have hbefore := hfound.trans hready
  refine ⟨ready, own ++ last, ⟨?_, ?_⟩, ?_, hfirst, ?_⟩
  · rw [hrest.trace, target.start_eq, CycleState.record, hbefore.trace, begun, CycleState.record]
    simp
  · rw [hrest.queue, target.start_eq, CycleState.record, hbefore.queue, begun, CycleState.record]
    simp [Event.scheduled?, Target.event]
  · intro e he
    rcases List.mem_append.1 he with he | he
    · exact hready.records e he
    · exact hrest.records e he
  · rw [scheduledIn_append, hnone, List.append_nil, hscheduled, steps, h]

/-- In a turn in which no call is made, request handling alone acts. -/
theorem leaves_of_none (h : turn.call? c = none) :
    ∃ rest, turn.Leaves c (.started turn.handler :: rest) ∧ ∀ e ∈ rest, c.records e = true := by
  obtain ⟨rest, hworks⟩ := Cycle.works_of_acts (acts_response_of_none h)
  refine ⟨rest, ⟨?_, ?_⟩, hworks.records⟩
  · rw [hworks.trace, begun, CycleState.record, List.append_assoc]
    rfl
  · rw [hworks.queue, begun, CycleState.record]
    simp [Event.scheduled?]

/-- A turn begins with its handler. Else there are a call, if the handler makes one, and what happens
around it. -/
theorem events_eq_cons (turn : Turn σ) (c : Cycle) : ∃ rest,
    turn.events c = .started turn.handler :: rest ∧ ∀ e ∈ rest, c.records e = true ∨
      ∃ call target, turn.call? c = some (call, target) ∧ e = target.event c call := by
  cases h : turn.call? c with
  | some called =>
    obtain ⟨call, target⟩ := called
    obtain ⟨ready, rest, hleaves, hrecords, -, -⟩ := leaves_of_call h
    refine ⟨_, hleaves.events_eq, ?_⟩
    intro e he
    rcases List.mem_append.1 he with he | he
    · exact .inl (hrecords e (List.mem_append_left _ he))
    rcases List.mem_cons.1 he with rfl | he
    · exact .inr ⟨call, target, rfl, rfl⟩
    · exact .inl (hrecords e (List.mem_append_right _ he))
  | none =>
    obtain ⟨rest, hleaves, hrecords⟩ := leaves_of_none h
    exact ⟨rest, hleaves.events_eq, fun e he => .inl (hrecords e he)⟩

theorem leaves_events (turn : Turn σ) (c : Cycle) : turn.Leaves c (turn.events c) := by
  cases h : turn.call? c with
  | some called =>
    obtain ⟨call, target⟩ := called
    obtain ⟨ready, rest, hleaves, -⟩ := leaves_of_call h
    rwa [hleaves.events_eq]
  | none =>
    obtain ⟨rest, hleaves, -⟩ := leaves_of_none h
    rwa [hleaves.events_eq]

end Turn

end StatefulPages
