import Mathlib.Logic.Relation
import StatefulPages.Proofs.Cycle.Turns

/-!
# Steps

The code of an application runs step by step, and between its steps nobody else does anything. Request
handling changes the state of a request by a few acts, which programs may also take.

* `Program.step?`, `Program.steps`: the steps of a program, with the states in which it takes them;
* `Program.induct`: what a step preserves, a run preserves;
* `Cycle.Acts`: from one state to another, request handling has only acted;
* `Cycle.acts_resolve`, `Cycle.acts_render`, `Cycle.acts_settle`: so it does in all that it does without
  the application.
-/

namespace StatefulPages

variable {σ : Type} [SessionStore σ]

/-! ## Steps of programs -/

namespace Program

/-- What a program does next: what is left of it then, and the state. -/
def step? (c : Cycle) : Program → CycleState σ → Option (Program × CycleState σ)
  | .done, _ | .fail _, _ => none
  | .request next, s => some (next c.request, s)
  | .schedule h next, s => some (next, s.schedule h)
  | .urlFor h next, s => some (next (c.urlFor s h), s)
  | .find id next, s => some (next (c.find id s).1, (c.find id s).2)
  | .create pageClass p next, s =>
    some (next (c.create pageClass p s).1, (c.create pageClass p s).2)
  | .touch ref next, s => some (next, s.touch ref)
  | .commit next, s => some (next, c.commit s)
  | .clear next, s => some (next, c.clear s)
  | .read ref next, s => some (next (s.page ref), s)
  | .write ref page next, s => some (next, { s with pages := s.pages.set ref page })
  | .takeId next, s => some (next s.nextId, { s with nextId := s.nextId + 1 })
  | .note n next, s => some (next, s.record (.noted n))

/-- The steps of a program: what is left of it at each, and the state then. The last one is the end. -/
def steps (c : Cycle) : Program → CycleState σ → List (Program × CycleState σ)
  | .done, s => [(.done, s)]
  | .fail e, s => [(.fail e, s)]
  | .request next, s => (.request next, s) :: (next c.request).steps c s
  | .schedule h next, s => (.schedule h next, s) :: next.steps c (s.schedule h)
  | .urlFor h next, s => (.urlFor h next, s) :: (next (c.urlFor s h)).steps c s
  | .find id next, s => (.find id next, s) :: (next (c.find id s).1).steps c (c.find id s).2
  | .create pageClass p next, s =>
    (.create pageClass p next, s) ::
      (next (c.create pageClass p s).1).steps c (c.create pageClass p s).2
  | .touch ref next, s => (.touch ref next, s) :: next.steps c (s.touch ref)
  | .commit next, s => (.commit next, s) :: next.steps c (c.commit s)
  | .clear next, s => (.clear next, s) :: next.steps c (c.clear s)
  | .read ref next, s => (.read ref next, s) :: (next (s.page ref)).steps c s
  | .write ref page next, s =>
    (.write ref page next, s) :: next.steps c { s with pages := s.pages.set ref page }
  | .takeId next, s =>
    (.takeId next, s) :: (next s.nextId).steps c { s with nextId := s.nextId + 1 }
  | .note n next, s => (.note n next, s) :: next.steps c (s.record (.noted n))

variable {c : Cycle} {p q : Program} {s t : CycleState σ}

theorem run_of_step? (h : p.step? c s = some (q, t)) : p.run c s = q.run c t := by
  cases p <;> cases h <;> rfl

theorem steps_of_step? (h : p.step? c s = some (q, t)) : p.steps c s = (p, s) :: q.steps c t := by
  cases p <;> cases h <;> rfl

theorem run_of_ended (h : p.step? c s = none) : (p.run c s).2 = s := by
  cases p <;> cases h <;> rfl

theorem steps_of_ended (h : p.step? c s = none) : p.steps c s = [(p, s)] := by
  cases p <;> cases h <;> rfl

/-- What holds at the end of programs, and before a step if it holds after it, holds of all programs. -/
theorem induct (c : Cycle) {motive : Program → CycleState σ → Prop}
    (ended : ∀ p s, p.step? c s = none → motive p s)
    (stepped : ∀ p s q t, p.step? c s = some (q, t) → motive q t → motive p s)
    (p : Program) (s : CycleState σ) : motive p s := by
  induction p generalizing s with
  | done | fail => exact ended _ s rfl
  | request next ih | urlFor _ next ih | find _ next ih | create _ _ next ih | read _ next ih
  | takeId next ih => exact stepped _ s _ _ rfl (ih _ _)
  | schedule _ next ih | touch _ next ih | commit next ih | clear next ih | write _ _ next ih
  | note _ next ih => exact stepped _ s _ _ rfl (ih _)

end Program

/-! ## Acts of request handling -/

namespace Cycle

/-- An act of request handling. It tells a page whether to keep its id only during a request of a script. -/
inductive Act (c : Cycle) (s : CycleState σ) : CycleState σ → Prop where
  | find (id : PageId) : Act c s (c.find id s).2
  | create (pageClass : PageClass) (p : Parameters) : Act c s (c.create pageClass p s).2
  | touch (page : PageRef) : Act c s (s.touch page)
  | schedule (h : Handler) : Act c s (s.schedule h)
  | freeze (hajax : c.request.isAjax = true) (page : PageRef) (frozen : Bool) :
      Act c s (s.freeze page frozen).2

/-- From one state to another, request handling has acted and nobody else. -/
abbrev Acts (c : Cycle) : CycleState σ → CycleState σ → Prop :=
  Relation.ReflTransGen c.Act

variable (c : Cycle) (s : CycleState σ)

theorem acts_createFor (source : PageSource) : c.Acts s (c.createFor source s).2 := by
  rw [createFor]
  split
  · exact .refl
  · exact .single (.create _ _)

theorem acts_resolve (source : PageSource) : c.Acts s (c.resolve source s).2 := by
  rw [resolve]
  split
  · exact .refl
  · exact c.acts_createFor s source
  · rename_i id _ _
    have hfind : c.Acts s (c.find id s).2 := .single (.find id)
    generalize c.find id s = found at hfind
    obtain ⟨found, t⟩ := found
    dsimp only at hfind ⊢
    split
    · split <;> exact hfind
    · split
      · exact hfind
      · exact hfind.trans (c.acts_createFor t source)

theorem acts_render (source : PageSource) (policy : RedirectPolicy) :
    c.Acts s (c.render source policy s).2 := by
  have hresolve := c.acts_resolve s source
  rw [render]
  generalize c.resolve source s = resolved at hresolve
  obtain ⟨_ | r, t⟩ := resolved
  · exact hresolve
  · exact hresolve.tail (.touch r.page)

theorem acts_renderNew (pageClass : PageClass) (p : Parameters) :
    c.Acts s (c.renderNew pageClass p s).2 := by
  have hcreate : c.Acts s (c.create pageClass p s).2 := .single (.create pageClass p)
  rw [renderNew]
  generalize c.create pageClass p s = created at hcreate
  obtain ⟨_ | page, t⟩ := created
  · exact hcreate
  · exact hcreate.tail (.touch page)

theorem acts_scheduleRender (call : ListenerCall) (page : PageRef) :
    c.Acts s (c.scheduleRender call page s) := by
  rw [scheduleRender]
  split
  · exact .single (.schedule _)
  · exact .refl

theorem acts_readyCall (call : ListenerCall) (page : PageRef) :
    c.Acts s (c.readyCall call page s) := by
  have hschedule := c.acts_scheduleRender s call page
  rw [readyCall]
  split
  · rename_i hajax
    exact hschedule.tail (.freeze hajax page true)
  · exact hschedule

theorem acts_endCall (call : ListenerCall) (page : PageRef) (wasFrozen : Bool)
    (result : Except Failure Unit × CycleState σ) :
    c.Acts result.2 (c.endCall call page wasFrozen result).2 := by
  have hfreeze : c.Acts result.2
      (if c.request.isAjax then (result.2.freeze page wasFrozen).2 else result.2) := by
    split
    · rename_i hajax
      exact .single (.freeze hajax page wasFrozen)
    · exact .refl
  rw [endCall]
  cases result.1 with
  | ok => exact hfreeze.tail (.touch page)
  | error => exact hfreeze

/-- Indicates a handler that found its page gone or changed. -/
def isUnresolved : Except Failure Outcome → Bool
  | .error e => e.isResolution
  | .ok _ => false

/-- The state in which a page that is gone or has changed is dealt with: nothing waits any more. -/
def dropWaiting (turn : Except Failure Outcome × CycleState σ) : CycleState σ :=
  if isUnresolved turn.1 then { turn.2 with queue := [] } else turn.2

theorem acts_settle (turn : Except Failure Outcome × CycleState σ) :
    c.Acts (dropWaiting turn) (c.settle turn).2 := by
  obtain ⟨result, t⟩ := turn
  cases result with
  | ok => exact .refl
  | error e =>
    cases e with
    | stale id expected actual =>
      have hfind : c.Acts { t with queue := [] } (c.find id { t with queue := [] }).2 :=
        .single (.find id)
      rw [settle]
      generalize c.find id { t with queue := [] } = found at hfind
      obtain ⟨_ | page, u⟩ := found
      · exact hfind
      · exact hfind.tail (.touch page)
    | _ => exact .refl

end Cycle

end StatefulPages
