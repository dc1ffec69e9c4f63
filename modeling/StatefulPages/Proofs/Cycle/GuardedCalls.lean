import StatefulPages.Proofs.Cycle.ListenerUrls
import StatefulPages.Proofs.Cycle.RequestTurns

/-!
# Guarded calls

Whatever a request does, and whatever the listeners that it calls do, a handler calls at most one
listener, and only the one that it reaches: on the page that it names, as it was when it was named, and
not on one that was made in its place.

* `Turn.calls_of_call`, `Turn.calls_of_none`: the calls of one turn;
* `Cycle.calls_only_targets`: the calls of a request.
-/

namespace StatefulPages

variable {σ : Type} [SessionStore σ]

namespace Cycle

theorem isCall_of_records {c : Cycle} {e : Event} (h : c.records e = true) : e.isCall = false := by
  cases e with
  | called => cases h
  | _ => rfl

end Cycle

namespace Turn

variable {c : Cycle} {turn : Turn σ} {call : ListenerCall} {target : Target σ}

/-- A turn has the one call of the listener that its handler reaches. -/
theorem calls_of_call (h : turn.call? c = some (call, target)) :
    (turn.events c).filter Event.isCall = [target.event c call] := by
  obtain ⟨ready, rest, hleaves, hrecords, -, -⟩ := leaves_of_call h
  have hnone : ∀ events : List Event, (∀ e ∈ events, c.records e = true) →
      events.filter Event.isCall = [] := by
    intro events hevents
    rw [List.filter_eq_nil_iff]
    intro e he
    rw [Cycle.isCall_of_records (hevents e he)]
    exact Bool.false_ne_true
  rw [hleaves.events_eq, List.filter_cons_of_neg Bool.false_ne_true, List.filter_append,
    List.filter_cons_of_pos rfl, hnone ready fun e he => hrecords e (List.mem_append_left _ he),
    hnone rest fun e he => hrecords e (List.mem_append_right _ he)]
  rfl

/-- A turn in which no listener is reached has no call. -/
theorem calls_of_none (h : turn.call? c = none) : ∀ e ∈ turn.events c, e.isCall = false := by
  obtain ⟨rest, hevents, hrest⟩ := turn.events_eq_cons c
  rw [hevents, List.forall_mem_cons]
  refine ⟨rfl, fun e he => ?_⟩
  rcases hrest e he with hrecords | ⟨call, target, hcall, -⟩
  · exact Cycle.isCall_of_records hrecords
  · cases h.symm.trans hcall

end Turn

namespace Cycle

/-- What happens in a request happens in the turns of its handlers. A handler that reaches a listener
calls it, and nothing else, and its turn ends when the listener is done. A handler that reaches none calls
none: request handling alone acts in its turn. -/
theorem calls_only_targets (c : Cycle) (n : Nat) (s : CycleState σ) :
    (∀ result t, c.process n s = some (result, t) →
      t.trace = s.trace ++ (c.turns n s).flatMap (·.events c) ++ [.committed]) ∧
    ∀ turn ∈ c.turns n s,
      (∀ call target, turn.handler = .listener call → c.Reaches call turn.begun target →
        turn.response c = c.endCall call target.page (target.found.page target.page).frozen
          ((target.listener call.interface).run c (target.start c call)) ∧
        (turn.events c).filter Event.isCall = [target.event c call]) ∧
      ((¬∃ call target, turn.handler = .listener call ∧ c.Reaches call turn.begun target) →
        c.Acts turn.begun (turn.response c).2 ∧ ∀ e ∈ turn.events c, e.isCall = false) := by
  refine ⟨fun result t => trace_of_process, ?_⟩
  intro turn _
  constructor
  · intro call target hhandler hreaches
    have hcall := Turn.call?_eq_some_iff.2 ⟨hhandler, target?_eq_some_iff.2 hreaches⟩
    exact ⟨Turn.response_of_call hcall, Turn.calls_of_call hcall⟩
  · intro hnone
    have hcall : turn.call? c = none := by
      rw [Option.eq_none_iff_forall_ne_some]
      rintro ⟨call, target⟩ hcall
      obtain ⟨hhandler, htarget⟩ := Turn.call?_eq_some_iff.1 hcall
      exact hnone ⟨call, target, hhandler, target?_eq_some_iff.1 htarget⟩
    exact ⟨Turn.acts_response_of_none hcall, Turn.calls_of_none hcall⟩

/-! ## A form -/

/-- A request of the application with a form, which is mapped to a handler. -/
def handlerCycle (r : Request) (h : Handler) : Cycle where
  request := r
  mapper := .ofRequests (fun _ => 0) (fun _ => some h) fun _ _ => none
  application := formScript.application
  session := "s"

/-- A call of the behavior of the form, on a page that is described. -/
def storedFormCall : ListenerCall where
  page := .described formPage (some "User") {}
  path := "form"
  interface := ⟨"IBehaviorListener", false⟩
  behavior := some 0

theorem has_formState (c : Cycle) (happlication : c.application = formScript.application)
    (hsession : c.session = "s") {page : Page} (hclass : page.pageClass = "User") :
    c.Has page (formState page).store := by
  have hserialize : formScript.serialize page = some page.toBytes := by
    rw [Script.serialize, hclass]
    rfl
  refine ⟨page.toBytes, by rw [happlication]; exact hserialize, ?_⟩
  rw [hsession]
  exact MemoryStore.load_store (.ofLimit 10) "s" page.id page.toBytes_ne_nil

/-- The behavior of the form is called on the page that the session has, and is not called if that has been
rendered since. -/
theorem calls_only_targets_of_form :
    (∃ turn ∈ (handlerCycle (Request.ofText "") (.listener storedFormCall)).turns 0
        (formState formPage),
      (turn.events (handlerCycle (Request.ofText "") (.listener storedFormCall))).filter Event.isCall =
        [.called 1 5 "form" (some 0) ⟨"IBehaviorListener", false⟩ false]) ∧
    ∃ turn ∈ (handlerCycle (Request.ofText "") (.listener storedFormCall)).turns 0
        (formState { formPage with renderCount := 4 }),
      ∀ e ∈ turn.events (handlerCycle (Request.ofText "") (.listener storedFormCall)),
        e.isCall = false := by
  let c := handlerCycle (Request.ofText "") (.listener storedFormCall)
  let turnOn (page : Page) : Turn MemoryStore :=
    { handler := .listener storedFormCall, before := formState page }
  have hmem (page : Page) : turnOn page ∈ c.turns 0 (formState page) :=
    List.mem_singleton_self (turnOn page)
  have hlossless : c.application.Lossless := formScript.lossless_application
  have hhas (page : Page) (hclass : page.pageClass = "User") :
      c.Has page (turnOn page).begun.store := has_formState c rfl rfl hclass
  constructor
  · obtain ⟨-, hcalls⟩ := calls_only_targets c 0 (formState formPage)
    have hfind := find_of_has (s := (turnOn formPage).begun) hlossless (hhas formPage rfl) rfl
    have hpage : (c.withRead formPage (turnOn formPage).begun).page 1 = formPage :=
      c.page_withRead formPage (turnOn formPage).begun
    have hreaches : c.Reaches storedFormCall (turnOn formPage).begun
        { page := 1, found := c.withRead formPage (turnOn formPage).begun
          listener := ScriptedComponent.listener
            { path := "form", behaviors := 1, actions := [.bump] } 1 (some 0) } := by
      refine ⟨.kept rfl rfl hfind ?_ ?_, _, rfl, rfl, rfl⟩
      · rintro _ ⟨⟩
        exact congrArg Page.pageClass hpage
      · rintro _ ⟨⟩
        exact congrArg Page.renderCount hpage
    exact ⟨turnOn formPage, hmem formPage,
      ((hcalls (turnOn formPage) (hmem formPage)).1 storedFormCall _ rfl hreaches).2⟩
  · let rendered : Page := { formPage with renderCount := 4 }
    obtain ⟨-, hcalls⟩ := calls_only_targets c 0 (formState rendered)
    have hid : rendered.id = formPage.id := rfl
    have hclass : ∀ k ∈ some "User", k = rendered.pageClass := by
      rintro _ ⟨⟩
      rfl
    have hstale := resolve_of_has (s := (turnOn rendered).begun) hlossless (hhas rendered rfl) rfl hid
      hclass {}
    rw [if_neg (by decide)] at hstale
    refine ⟨turnOn rendered, hmem rendered, ((hcalls (turnOn rendered) (hmem rendered)).2 ?_).2⟩
    rintro ⟨call, target, hhandler, hreaches⟩
    cases hhandler
    obtain ⟨created, hresolve, -⟩ := hreaches.page.resolve
    cases hresolve.symm.trans hstale

end Cycle

end StatefulPages
