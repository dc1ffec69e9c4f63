import StatefulPages.Proofs.Cycle.TouchedPages
import StatefulPages.Proofs.Storage.ReadPages
import StatefulPages.Scripted.Script

/-!
# Requests that fail

A page is touched when a handler has succeeded with it, and only pages that are touched are stored. Until
then a handler may have scheduled others and changed its page, but the store has only been read. So nothing
is left of a handler that fails, though the request is committed.

* `Turn.next?_of_failure`: no handler follows one that fails;
* `Turn.onlyReads_ended`: nor has it touched a page or written to the store, if its listener has not;
* `Cycle.process_of_failure`: so the pages of all sessions are as before.
-/

namespace StatefulPages

variable {σ : Type} [SessionStore σ]

/-- Indicates the result of a handler that fails, or that finds its page gone. One that panics gives none. -/
def Cycle.isFailed : Except Failure Outcome → Bool
  | .error e => !e.isPanic
  | .ok (.expired _) => true
  | .ok _ => false

theorem Cycle.isPanicked_of_isFailed {result : Except Failure Outcome}
    (h : Cycle.isFailed result = true) : Cycle.isPanicked result = false := by
  cases result with
  | error e => exact Bool.not_eq_true' e.isPanic ▸ h
  | ok => rfl

namespace Turn

variable {c : Cycle} {turn : Turn σ}

/-- A handler that succeeds does not take a page for expired. -/
theorem response_ne_expired (turn : Turn σ) (c : Cycle) (id : PageId) :
    (turn.response c).1 ≠ .ok (.expired id) := by
  intro h
  rw [response] at h
  generalize turn.begun = begun at h
  cases hhandler : turn.handler with
  | render source policy =>
    rw [hhandler, Cycle.respond, Cycle.render] at h
    split at h <;> cases h
  | bookmarkable pageClass p =>
    rw [hhandler, Cycle.respond, Cycle.renderNew] at h
    split at h <;> cases h
  | listener call =>
    rw [hhandler, Cycle.respond, Cycle.call] at h
    split at h
    · cases h
    · split at h
      · cases h
      · rw [Cycle.callOn] at h
        split at h
        · cases h
        · split at h
          · cases h
          · split at h <;> cases h
  | resource | buffered | redirect =>
    rw [hhandler] at h
    cases h

/-- A turn that fails, or finds its page gone, is one of a handler that fails. -/
theorem exists_error_of_ended (hfails : Cycle.isFailed (turn.ended c).1 = true) :
    ∃ e t, turn.response c = (.error e, t) := by
  have hgone := turn.response_ne_expired c
  rw [ended] at hfails
  rcases hturn : turn.response c with ⟨e | outcome, t⟩
  · exact ⟨e, t, rfl⟩
  · rw [hturn] at hfails hgone
    cases outcome with
    | expired id => exact absurd rfl (hgone id)
    | _ => cases hfails

/-- No handler follows one that fails, and those that wait when a page is gone are dropped. -/
theorem next?_of_failure (hfails : Cycle.isFailed (turn.ended c).1 = true) : turn.next? c = none := by
  obtain ⟨e, t, hresponse⟩ := exists_error_of_ended hfails
  rw [next?, ended, hresponse]
  cases he : e.isResolution with
  | false => rw [c.settle_of_failure he]
  | true =>
    have hqueue := c.queue_settle_of_unresolved (.error e, t) he
    split
    · rfl
    · rename_i heq
      rw [heq] at hqueue
      rw [hqueue]

/-- A page that has changed is touched only if it is rendered, and one that is gone is not. -/
theorem lastTouched?_of_failure (hfails : Cycle.isFailed (turn.ended c).1 = true) :
    turn.lastTouched? c = none := by
  obtain ⟨e, t, hresponse⟩ := exists_error_of_ended hfails
  rw [ended, hresponse] at hfails
  rw [lastTouched?, hresponse]
  -- Only a page that has changed is looked for once more, and were it found the turn would not fail.
  cases e with
  | stale id expected actual =>
    rw [Cycle.settle] at hfails
    dsimp only
    generalize c.find id { t with queue := [] } = found at hfails ⊢
    obtain ⟨_ | page, u⟩ := found
    · rfl
    · cases hfails
  | _ => rfl

/-- If its listener does not say itself which pages are stored, a handler has only read the store when the
listener is done. -/
theorem onlyReads_stepped (hquiet : ∀ step ∈ turn.steps c, step.1.managesPages = false) :
    turn.before.OnlyReads c (turn.stepped c) := by
  cases hcall : turn.call? c with
  | some called =>
    obtain ⟨call, target⟩ := called
    rw [steps_of_call hcall] at hquiet
    rw [stepped_of_call hcall]
    exact (onlyReads_start hcall).trans (Program.onlyReads_run hquiet)
  | none =>
    rw [stepped_of_none hcall]
    exact .of_eq rfl rfl

/-- When a handler fails, or its page is gone, no page is touched. -/
theorem onlyReads_ended (hquiet : ∀ step ∈ turn.steps c, step.1.managesPages = false)
    (hfails : Cycle.isFailed (turn.ended c).1 = true) : turn.before.OnlyReads c (turn.ended c).2 := by
  obtain ⟨u, hreads, hended⟩ := turn.exists_ended c
  rw [hended, lastTouched?_of_failure hfails]
  exact (onlyReads_stepped hquiet).trans hreads

end Turn

namespace Cycle

variable {c : Cycle} {s : CycleState σ} {turn : Turn σ}

theorem turnsFrom_of_last (h : turn.next? c = none) (n : Nat) : c.turnsFrom n turn = [turn] := by
  cases n with
  | zero => rfl
  | succ n => rw [turnsFrom, h]

/-- A request that is mapped to a handler is the turn of the handler and what follows. -/
theorem process_of_firstTurn (hfirst : c.firstTurn? s = some turn) (n : Nat) :
    (∃ buffer, turn.before = { s with buffer }) ∧ c.process n s = c.goOn n (turn.response c) := by
  rw [firstTurn?] at hfirst
  split at hfirst
  · rename_i h buffer hdecode
    cases hfirst
    exact ⟨⟨buffer, rfl⟩, c.process_eq_goOn s hdecode n⟩
  · cases hfirst

/-- A commit stores nothing if no page is touched. -/
theorem commit_of_untouched (c : Cycle) (h : s.touched = []) : c.commit s = s := by
  rw [commit, h, List.foldl_nil, ← h]

/-- A request that fails stores nothing. If the handler that it is mapped to fails, or finds its page gone,
then, whatever the handler and its listener did before, the result says so, no handler follows, the request
is committed, and the store has only been read: all sessions have their pages with their bytes as before.
The listener itself may touch no page, store none and not clear the session. -/
theorem process_of_failure [LastingPages σ] (c : Cycle) (n : Nat) (s : CycleState σ) {turn : Turn σ}
    (hfirst : c.firstTurn? s.fresh = some turn)
    (hfails : Cycle.isFailed (turn.ended c).1 = true)
    (hquiet : ∀ step ∈ turn.steps c, step.1.managesPages = false) :
    ∃ t, c.process n s.fresh = some ((turn.ended c).1, t) ∧
      c.turns n s.fresh = [turn] ∧ t.trace = turn.events c ++ [.committed] ∧
      (∃ ids : List PageId, t.store = SessionStore.run s.store (ids.map (.load c.session))) ∧
      ∀ id, LastingPages.pages t.store id = LastingPages.pages s.store id := by
  have hreads := Turn.onlyReads_ended hquiet hfails
  have hlast := Turn.next?_of_failure hfails
  obtain ⟨⟨buffer, hbefore⟩, hgoOn⟩ := process_of_firstTurn hfirst n
  have hprocess : c.process n s.fresh = some ((turn.ended c).1, c.finish (turn.ended c).2) := by
    rw [hgoOn, goOn, following_of_last hlast, Option.bind_some, conclude_eq_some_iff]
    exact ⟨isPanicked_of_isFailed hfails, rfl, rfl⟩
  have hturns : c.turns n s.fresh = [turn] := by
    rw [turns, hfirst]
    exact turnsFrom_of_last hlast n
  rw [hbefore] at hreads
  obtain ⟨ids, hids⟩ := hreads.store
  have hstore : (c.finish (turn.ended c).2).store =
      SessionStore.run s.store (ids.map (.load c.session)) := by
    rw [finish, commit_of_untouched c hreads.touched]
    exact hids
  refine ⟨_, hprocess, hturns, ?_, ⟨ids, hstore⟩, fun id => ?_⟩
  · have htrace := trace_of_process hprocess
    rw [hturns, List.flatMap_singleton] at htrace
    exact htrace
  · rw [hstore]
    exact LastingPages.pages_run s.store c.session ids id

/-- An application with a page that counts, lets it be rendered, and then fails. -/
def failingScript : Script :=
  [("Form", { components := [{
    path := "save", actions := [.bump, .schedule (.render { id := some 5 } .never), .fail] }] })]

/-- A call of a listener of the page, after which the page would be rendered. -/
def failingCall : ListenerCall where
  page := { id := some 5 }
  path := "save"
  interface := ⟨"ILinkListener", true⟩

def failingCycle : Cycle where
  request := Request.ofText ""
  mapper := .ofRequests (fun _ => 0) (fun _ => some (.listener failingCall)) fun _ _ => none
  application := failingScript.application
  session := "s"

/-- A session that has stored the page. -/
def failingState : CycleState MemoryStore where
  store := (MemoryStore.ofLimit 10).store "s" 5 ({ id := 5, pageClass := "Form" } : Page).toBytes

/-- A listener fails when its page has counted and two renderings wait. Neither is done, and the page is
stored as it was. -/
theorem process_of_failure_of_form : ∃ t,
    failingCycle.process 3 failingState.fresh =
      some (.error (.application "listener of save failed"), t) ∧
    (scheduledIn t.trace).length = 2 ∧
    t.trace.filter Event.isStart = [.started (.listener failingCall)] ∧
    LastingPages.pages t.store "s" = [(5, ({ id := 5, pageClass := "Form" } : Page).toBytes)] := by
  let turn : Turn MemoryStore := { handler := .listener failingCall, before := failingState.fresh }
  have hended : (turn.ended failingCycle).1 = .error (.application "listener of save failed") := by
    decide +kernel
  have hfirst : failingCycle.firstTurn? failingState.fresh = some turn := rfl
  have hfails : Cycle.isFailed (turn.ended failingCycle).1 = true := by
    rw [hended]
    rfl
  obtain ⟨t, hprocess, -, htrace, -, hpages⟩ :=
    process_of_failure failingCycle 3 failingState hfirst hfails (by decide +kernel)
  rw [hended] at hprocess
  refine ⟨t, hprocess, ?_, ?_, hpages "s"⟩
  · rw [htrace]
    decide +kernel
  · rw [htrace]
    decide +kernel

end Cycle

end StatefulPages
