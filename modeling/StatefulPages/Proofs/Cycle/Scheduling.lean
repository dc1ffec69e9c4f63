import StatefulPages.Proofs.Cycle.RequestTurns
import StatefulPages.Scripted.Script
import StatefulPages.Storage.MemoryStore

/-!
# The order of handlers

The handlers of a request have their turns in the order in which they were scheduled, whoever schedules
them, until one of them fails or finds its page gone or changed. The last one decides what comes of the
request, and then the request is committed.

* `Turn.scheduled_of_call`: what a listener schedules waits behind the rendering that follows its call;
* `Cycle.Ordered`, `Cycle.process_ordered`: the turns of a request.
-/

namespace StatefulPages

variable {σ : Type} [SessionStore σ]

namespace Turn

variable {c : Cycle} {turn : Turn σ} {call : ListenerCall} {target : Target σ}

/-- In a turn with a call, the rendering that is to follow it is scheduled, and then what the listener
schedules. -/
theorem scheduled_of_call (h : turn.call? c = some (call, target)) :
    scheduledIn (turn.events c) = c.rendersFirst call target.page target.found ++
      (turn.steps c).filterMap Program.scheduled? := by
  obtain ⟨ready, rest, hleaves, -, hready, hrest⟩ := leaves_of_call h
  rw [hleaves.events_eq, scheduledIn_cons, scheduledIn_append, scheduledIn_cons, hready, hrest]
  rfl

/-- Until a turn is over, no handler but its own begins, and nothing is committed at the end of the
request. -/
theorem events_eq_started (turn : Turn σ) (c : Cycle) : ∃ rest,
    turn.events c = .started turn.handler :: rest ∧ (∀ h, Event.started h ∉ rest) ∧
      Event.committed ∉ rest := by
  obtain ⟨rest, hevents, hrest⟩ := turn.events_eq_cons c
  have hother : ∀ e, c.records e = false → e.isCall = false → e ∉ rest := by
    intro e hrecords hcall hmem
    rcases hrest e hmem with h | ⟨call, target, -, rfl⟩
    · exact Bool.false_ne_true (hrecords.symm.trans h)
    · cases hcall
  exact ⟨rest, hevents, fun h => hother (.started h) rfl rfl, hother .committed rfl rfl⟩

end Turn

namespace Cycle

/-- What becomes of a page that was rendered since: as it is now it is rendered, if it is still there. -/
def renderCurrent (c : Cycle) (id : PageId) (s : CycleState σ) : Outcome :=
  match c.find id s with
  | (some page, s) => .rendered (s.page page).id (s.page page).pageClass .auto
  | (none, _) => .expired id

/-- The turns of a request which began in the state `s` and ended in `t`. -/
structure Ordered (c : Cycle) (s : CycleState σ) (turns : List (Turn σ))
    (result : Except Failure Outcome) (t : CycleState σ) : Prop where
  /-- A turn begins with its handler, and no other handler begins in it. -/
  began : ∀ turn ∈ turns, ∃ rest, turn.events c = .started turn.handler :: rest ∧
    ∀ h, Event.started h ∉ rest
  /-- The first turn has the handler that the request is mapped to. -/
  first : turns.head?.map Turn.handler = (c.mapper.decode s.buffer c.request).1
  /-- The other turns have the handlers that were scheduled, in the order in which they were; behind
  them come those that still wait when the last one is done. -/
  order : ∀ last ∈ turns.getLast?, turns.tail.map Turn.handler ++ (last.response c).2.queue =
    s.queue ++ scheduledIn (turns.flatMap (·.events c))
  /-- The rendering that follows a call is scheduled before all that the listener schedules. -/
  rendersFirst : ∀ turn ∈ turns, ∀ call target, turn.call? c = some (call, target) →
    scheduledIn (turn.events c) = c.rendersFirst call target.page target.found ++
      (turn.steps c).filterMap Program.scheduled?
  /-- A handler that does not succeed has the last turn. -/
  earlier : ∀ turn ∈ turns.dropLast, ∃ outcome, (turn.response c).1 = .ok outcome
  /-- A request for nothing has no turns. -/
  notFound : turns = [] → result = .ok .notFound
  /-- If the last handler succeeds, its outcome is the one of the request, and nobody waits. -/
  succeeded : ∀ last ∈ turns.getLast?, ∀ outcome, (last.response c).1 = .ok outcome →
    result = .ok outcome ∧ (last.response c).2.queue = []
  /-- If it fails, so does the request. -/
  failed : ∀ last ∈ turns.getLast?, ∀ e, (last.response c).1 = .error e → e.isResolution = false →
    result = .error e
  /-- If its page is gone, that is the outcome, and those that wait are dropped. -/
  expired : ∀ last ∈ turns.getLast?, ∀ id, (last.response c).1 = .error (.expired id) →
    result = .ok (.expired id) ∧ t.queue = []
  /-- If its page has changed, the page is rendered as it is now, and those that wait are dropped. -/
  stale : ∀ last ∈ turns.getLast?, ∀ id expected actual,
    (last.response c).1 = .error (.stale id expected actual) →
    result = .ok (c.renderCurrent id { (last.response c).2 with queue := [] }) ∧ t.queue = []
  /-- A page that is gone or has changed is no failure of the request. -/
  resolved : ∀ e, result = .error e → e.isResolution = false
  /-- The request is committed when its turns are over. -/
  committed : t = (c.commit (c.endOf turns s)).record .committed
  /-- That is done once. -/
  once : t.trace = s.trace ++ turns.flatMap (·.events c) ++ [.committed] ∧
    ∀ turn ∈ turns, Event.committed ∉ turn.events c

variable {c : Cycle} {n : Nat} {s t : CycleState σ} {result : Except Failure Outcome}

theorem queue_finish (c : Cycle) (s : CycleState σ) : (c.finish s).queue = s.queue :=
  c.queue_commit s

theorem settle_of_ok (c : Cycle) {response : Except Failure Outcome × CycleState σ} {outcome : Outcome}
    (h : response.1 = .ok outcome) : c.settle response = response := by
  obtain ⟨_ | _, s⟩ := response
  · cases h
  · rfl

theorem settle_of_expired (c : Cycle) {response : Except Failure Outcome × CycleState σ} {id : PageId}
    (h : response.1 = .error (.expired id)) :
    (c.settle response).1 = .ok (.expired id) := by
  obtain ⟨_ | _, s⟩ := response <;> cases h
  rfl

theorem settle_of_renderCurrent (c : Cycle) {response : Except Failure Outcome × CycleState σ}
    {id : PageId} {expected actual : UInt32} (h : response.1 = .error (.stale id expected actual)) :
    (c.settle response).1 = .ok (c.renderCurrent id { response.2 with queue := [] }) := by
  obtain ⟨_ | _, s⟩ := response <;> cases h
  rw [settle, renderCurrent]
  generalize c.find id { s with queue := [] } = found
  obtain ⟨_ | _, t⟩ := found <;> rfl

theorem isResolution_of_settle (c : Cycle) {response : Except Failure Outcome × CycleState σ}
    {e : Failure} (h : (c.settle response).1 = .error e) : e.isResolution = false := by
  obtain ⟨e' | _, s⟩ := response
  · cases e' with
    | expired id => cases h
    | stale id expected actual =>
      rw [c.settle_of_renderCurrent rfl] at h
      cases h
    | _ =>
      cases h
      rfl
  · cases h

theorem exists_outcome_of_mem_dropLast {turns : List (Turn σ)} (h : turns.IsChain (Turn.Precedes c))
    {turn : Turn σ} (hturn : turn ∈ turns.dropLast) : ∃ outcome, (turn.response c).1 = .ok outcome := by
  induction turns with
  | nil => cases hturn
  | cons first later ih =>
    cases later with
    | nil => cases hturn
    | cons second later =>
      rw [List.isChain_cons_cons] at h
      rw [List.dropLast_cons_cons, List.mem_cons] at hturn
      rcases hturn with rfl | hturn
      · obtain ⟨outcome, hresponse⟩ := Turn.response_of_precedes h.1
        exact ⟨outcome, congrArg Prod.fst hresponse⟩
      · exact ih h.2 hturn

/-- The last turn of a request gives its result. -/
theorem last_of_process (h : c.process n s = some (result, t)) :
    ∀ last ∈ (c.turns n s).getLast?, last.next? c = none ∧ result = (last.ended c).1 ∧
      t = c.finish (last.ended c).2 := by
  rcases process_cases h with ⟨hturns, -⟩ | ⟨_, _, -, -, -, given, hgiven, hended⟩
  · rw [hturns]
    intro last hlast
    cases hlast
  · intro last hlast
    rw [Option.mem_unique hlast hgiven]
    exact hended

/-- Handlers have their turns in the order in which they were scheduled. -/
theorem order_of_process (h : c.process n s = some (result, t)) :
    ∀ last ∈ (c.turns n s).getLast?,
      (c.turns n s).tail.map Turn.handler ++ (last.response c).2.queue =
        s.queue ++ scheduledIn ((c.turns n s).flatMap (·.events c)) := by
  have hchain := c.isChain_turns n s
  intro last hlast
  rcases process_cases h with ⟨hturns, -⟩ | ⟨first, later, hturns, -, hfirst, -⟩
  · rw [hturns] at hlast
    cases hlast
  · rw [hturns] at hlast hchain ⊢
    obtain ⟨-, hqueue⟩ := leaves_of_isChain hchain hlast
    rw [hfirst] at hqueue
    exact hqueue

/-- Nobody waits any more when a page was found gone or changed. -/
theorem queue_of_process_of_unresolved (h : c.process n s = some (result, t)) {last : Turn σ}
    (hlast : last ∈ (c.turns n s).getLast?) (hunresolved : isUnresolved (last.response c).1 = true) :
    t.queue = [] := by
  obtain ⟨-, -, rfl⟩ := last_of_process h last hlast
  rw [queue_finish]
  exact c.queue_settle_of_unresolved (last.response c) hunresolved

/-- A request that gives a result runs its handlers in order. -/
theorem process_ordered (h : c.process n s = some (result, t)) :
    c.Ordered s (c.turns n s) result t where
  began turn _ := by
    obtain ⟨rest, hevents, hstarted, -⟩ := turn.events_eq_started c
    exact ⟨rest, hevents, hstarted⟩
  first := by
    rcases process_cases h with ⟨hturns, hnone, -, -⟩ | ⟨first, later, hturns, hfirst, -⟩
    · rw [hturns, hnone]
      rfl
    · rw [hturns, hfirst]
      rfl
  order := order_of_process h
  rendersFirst _ _ _ _ := Turn.scheduled_of_call
  earlier _ := exists_outcome_of_mem_dropLast (c.isChain_turns n s)
  notFound := by
    rcases process_cases h with ⟨-, -, hresult, -⟩ | ⟨first, later, hturns, -⟩
    · exact fun _ => hresult
    · exact fun hnil => by rw [hturns] at hnil; cases hnil
  succeeded := by
    intro last hlast outcome hok
    obtain ⟨hnext, rfl, -⟩ := last_of_process h last hlast
    have hsettle := c.settle_of_ok hok
    have hresult : (last.ended c).1 = .ok outcome := (congrArg Prod.fst hsettle).trans hok
    have hqueue := last.queue_of_last hnext hresult
    rw [Turn.ended, hsettle] at hqueue
    exact ⟨hresult, hqueue⟩
  failed := by
    intro last hlast e herror he
    obtain ⟨-, rfl, -⟩ := last_of_process h last hlast
    rw [Turn.ended, show last.response c = (.error e, (last.response c).2) from Prod.ext herror rfl,
      c.settle_of_failure he]
  expired := by
    intro last hlast id hexpired
    have hqueue := queue_of_process_of_unresolved h hlast (by rw [hexpired]; rfl)
    obtain ⟨-, rfl, -⟩ := last_of_process h last hlast
    exact ⟨c.settle_of_expired hexpired, hqueue⟩
  stale := by
    intro last hlast id expected actual hstale
    have hqueue := queue_of_process_of_unresolved h hlast (by rw [hstale]; rfl)
    obtain ⟨-, rfl, -⟩ := last_of_process h last hlast
    exact ⟨c.settle_of_renderCurrent hstale, hqueue⟩
  resolved := by
    rcases process_cases h with ⟨-, -, rfl, -⟩ | ⟨_, _, -, -, -, last, -, -, rfl, -⟩
    · intro e he
      cases he
    · exact fun e => c.isResolution_of_settle
  committed := eq_finish_of_process h
  once := by
    refine ⟨trace_of_process h, fun turn _ hmem => ?_⟩
    obtain ⟨rest, hevents, -, hcommitted⟩ := turn.events_eq_started c
    rw [hevents] at hmem
    exact hcommitted (List.mem_of_ne_of_mem Event.noConfusion hmem)

/-! ## A link that schedules two resources -/

/-- An application of which the pages have a link. -/
def linkScript : Script :=
  [("Links", { components := [{ path := "link", actions :=
    [.schedule (.resource ⟨"links", "first"⟩ {}), .schedule (.resource ⟨"links", "second"⟩ {})] }] })]

/-- A request for the link, on the first page object. -/
def linkCycle : Cycle where
  request := Request.ofText ""
  mapper := .ofRequests (fun _ => 0)
    (fun _ => some (.listener { page := { live := some 0 }, path := "link"
                                interface := ⟨"ILinkListener", true⟩ }))
    fun _ _ => none
  application := linkScript.application
  session := "s"

/-- The page with the link. -/
def linkState : CycleState MemoryStore where
  pages := Heap.empty.add { id := 5, pageClass := "Links" }
  store := .ofLimit 10

/-- The page is rendered, and then come the resources, the first before the second. -/
theorem process_ordered_of_link : ∃ result t, linkCycle.process 3 linkState = some (result, t) ∧
    result = .ok (.resource ⟨"links", "second"⟩ {}) ∧
    linkCycle.Ordered linkState (linkCycle.turns 3 linkState) result t ∧
    (linkCycle.turns 3 linkState).tail.map Turn.handler =
      [.render (.ofPage linkState.pages 0) .auto, .resource ⟨"links", "first"⟩ {},
        .resource ⟨"links", "second"⟩ {}] := by
  have hprocess : ∃ t, linkCycle.process 3 linkState =
      some (.ok (.resource ⟨"links", "second"⟩ {}), t) := ⟨_, rfl⟩
  obtain ⟨t, ht⟩ := hprocess
  exact ⟨_, t, ht, rfl, process_ordered ht, rfl⟩

end Cycle

end StatefulPages
