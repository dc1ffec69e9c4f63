import StatefulPages.Cycle.State

/-!
# Processing a request

A request is mapped to a handler; then the handlers run that were scheduled, in the order in which
they were scheduled, and at last the pages are stored. The first failure ends the request. A page
that is gone or has changed is not a failure: it is the outcome, and no further handlers run.

A listener is called only on a page that was found, or that is new and was never stored. A page that
was made again because it was gone, and one that has been rendered since, is rendered instead. For
the requests of scripts a page keeps its id while its listeners run.

A panic of a listener goes up through all of this: what is to be undone at the end of a call is undone on
the way, but no further handlers run, and the pages are not stored.
-/

namespace StatefulPages

variable {σ : Type} [SessionStore σ]

/-- Runs the code of an application. -/
def Program.run (c : Cycle) : Program → CycleState σ → Except Failure Unit × CycleState σ
  | .done, s => (.ok (), s)
  | .fail e, s => (.error e, s)
  | .request next, s => (next c.request).run c s
  | .schedule h next, s => next.run c (s.schedule h)
  | .urlFor h next, s => (next (c.urlFor s h)).run c s
  | .find id next, s =>
    let (ref, s) := c.find id s
    (next ref).run c s
  | .create pageClass parameters next, s =>
    let (ref, s) := c.create pageClass parameters s
    (next ref).run c s
  | .touch ref next, s => next.run c (s.touch ref)
  | .commit next, s => next.run c (c.commit s)
  | .clear next, s => next.run c (c.clear s)
  | .read ref next, s => (next (s.page ref)).run c s
  | .write ref page next, s => next.run c { s with pages := s.pages.set ref page }
  | .takeId next, s => (next s.nextId).run c { s with nextId := s.nextId + 1 }
  | .note n next, s => next.run c (s.record (.noted n))

/-- A page that a handler works on. -/
structure Resolved where
  page : PageRef
  /-- Indicates that the page was made just now. -/
  created : Bool
  deriving DecidableEq, Repr, Inhabited

namespace Cycle

/-! ## Finding the page -/

/-- Indicates that a page is of the class that is described, if one is. -/
def isOfClass (source : PageSource) (page : Page) : Bool :=
  source.pageClass.all (page.pageClass = ·)

/-- Makes the page that a source describes. -/
def createFor (c : Cycle) (source : PageSource) (s : CycleState σ) :
    Except Failure Resolved × CycleState σ :=
  match source.pageClass with
  | none => (.error .noPage, s)
  | some pageClass =>
    let (ref, s) := c.create pageClass source.parameters s
    (ref.map fun page => { page, created := true }, s)

/-- Finds the page that a source describes, or makes it. -/
def resolve (c : Cycle) (source : PageSource) (s : CycleState σ) :
    Except Failure Resolved × CycleState σ :=
  match source.live, source.id with
  | some page, _ => (.ok { page, created := false }, s)
  | none, none => c.createFor source s
  | none, some id =>
    let (found, s) := c.find id s
    match found.filter fun page => isOfClass source (s.page page) with
    | some page =>
      let actual := (s.page page).renderCount
      match source.renderCount.filter (· ≠ actual) with
      | some expected => (.error (.stale id expected actual), s)
      | none => (.ok { page, created := false }, s)
    | none => if source.pageClass = none then (.error (.expired id), s) else c.createFor source s

/-! ## Handlers -/

omit [SessionStore σ] in
/-- Touches a page that is to be rendered. -/
def renderPage (page : PageRef) (policy : RedirectPolicy) (s : CycleState σ) :
    Outcome × CycleState σ :=
  (.rendered (s.page page).id (s.page page).pageClass policy, s.touch page)

/-- Renders the page of a source. -/
def render (c : Cycle) (source : PageSource) (policy : RedirectPolicy) (s : CycleState σ) :
    Except Failure Outcome × CycleState σ :=
  match c.resolve source s with
  | (.ok r, s) =>
    let (outcome, s) := renderPage r.page policy s
    (.ok outcome, s)
  | (.error e, s) => (.error e, s)

/-- Runs a listener, which sees the page as it is now. -/
def runListener (c : Cycle) (call : ListenerCall) (page : PageRef) (listener : Listener)
    (s : CycleState σ) : Except Failure Unit × CycleState σ :=
  let state := s.page page
  (listener call.interface).run c
    (s.record (.called page state.id call.path call.behavior call.interface state.frozen))

/-- Calls the listener of a component, or of the behavior that the call names. -/
def invoke (c : Cycle) (call : ListenerCall) (page : PageRef) (component : Component)
    (s : CycleState σ) : Except Failure Unit × CycleState σ :=
  match call.behavior with
  | none => c.runListener call page component.listener s
  | some index =>
    match component.behaviors[index]? with
    | some listener => c.runListener call page listener s
    | none => (.error (.behaviorNotFound call.path index component.behaviors.length), s)

/-- Calls a listener, during a request of a script with the page frozen. However the listener ends, also by
a panic, the page is then told again what it had been told before. -/
def invokeFrozen (c : Cycle) (call : ListenerCall) (page : PageRef) (component : Component)
    (s : CycleState σ) : Except Failure Unit × CycleState σ :=
  if c.request.isAjax then
    let (previous, s) := s.freeze page true
    let (result, s) := c.invoke call page component s
    (result, (s.freeze page previous).2)
  else c.invoke call page component s

omit [SessionStore σ] in
/-- Schedules that the page is rendered, if that is to follow a call. -/
def scheduleRender (c : Cycle) (call : ListenerCall) (page : PageRef) (s : CycleState σ) :
    CycleState σ :=
  if !c.request.isAjax && call.interface.rendersPage then
    s.schedule (.render (.ofPage s.pages page) (if (s.page page).stateless then .never else .auto))
  else s

/-- Calls a listener on a page, which is touched if the listener succeeds. -/
def callOn (c : Cycle) (call : ListenerCall) (page : PageRef) (s : CycleState σ) :
    Except Failure Outcome × CycleState σ :=
  let id := (s.page page).id
  match c.application.component? s.pages page call.path with
  | none => (.error (.componentNotFound id call.path), s)
  | some component =>
    if component.owner ≠ some id then (.error (.componentRemoved id call.path), s)
    else
      match c.invokeFrozen call page component (c.scheduleRender call page s) with
      | (.ok _, s) => (.ok (.called (s.page page).id call.path), s.touch page)
      | (.error e, s) => (.error e, s)

/-- Calls a listener. A page that was gone and had to be made again is rendered instead. -/
def call (c : Cycle) (call : ListenerCall) (s : CycleState σ) :
    Except Failure Outcome × CycleState σ :=
  match c.resolve call.page s with
  | (.error e, s) => (.error e, s)
  | (.ok r, s) =>
    if r.created ∧ call.page.id ≠ none then
      let (outcome, s) := renderPage r.page .auto s
      (.ok outcome, s)
    else c.callOn call r.page s

/-- Makes a page of a class and renders it. -/
def renderNew (c : Cycle) (pageClass : PageClass) (parameters : Parameters) (s : CycleState σ) :
    Except Failure Outcome × CycleState σ :=
  match c.create pageClass parameters s with
  | (.ok page, s) =>
    let (outcome, s) := renderPage page .auto s
    (.ok outcome, s)
  | (.error e, s) => (.error e, s)

/-- Runs a handler. -/
def respond (c : Cycle) (h : Handler) (s : CycleState σ) :
    Except Failure Outcome × CycleState σ :=
  match h with
  | .render source policy => c.render source policy s
  | .bookmarkable pageClass parameters => c.renderNew pageClass parameters s
  | .listener l => c.call l s
  | .resource name parameters => (.ok (.resource name parameters), s)
  | .buffered _ response => (.ok (.buffered response), s)
  | .redirect url => (.ok (.redirected url), s)

/-! ## The request -/

/-- Makes an outcome of a page that is gone, and renders one that has changed. The handlers that
wait are dropped then. -/
def settle (c : Cycle) :
    Except Failure Outcome × CycleState σ → Except Failure Outcome × CycleState σ
  | (.error (.expired id), s) => (.ok (.expired id), { s with queue := [] })
  | (.error (.stale id _ _), s) =>
    match c.find id { s with queue := [] } with
    | (some page, s) =>
      let (outcome, s) := renderPage page .auto s
      (.ok outcome, s)
    | (none, s) => (.ok (.expired id), s)
  | (result, s) => (result, s)

/-- Runs a handler in its turn. -/
def runHandler (c : Cycle) (h : Handler) (s : CycleState σ) :
    Except Failure Outcome × CycleState σ :=
  c.settle (c.respond h (s.record (.started h)))

/-- Runs up to `n` of the handlers that wait; there is no result if that does not end. -/
def runQueue (c : Cycle) : (n : Nat) → Outcome → CycleState σ →
    Option (Except Failure Outcome × CycleState σ)
  | n, outcome, s =>
    match n, s.queue with
    | _, [] => some (.ok outcome, s)
    | 0, _ => none
    | n + 1, h :: queue =>
      match c.runHandler h { s with queue } with
      | (.ok outcome, s) => c.runQueue n outcome s
      | (.error e, s) => some (.error e, s)

/-- Maps the request to a handler and runs it, and then up to `n` that wait. -/
def runHandlers (c : Cycle) (n : Nat) (s : CycleState σ) :
    Option (Except Failure Outcome × CycleState σ) :=
  match c.mapper.decode s.buffer c.request with
  | (none, buffer) => some (.ok .notFound, { s with buffer })
  | (some h, buffer) =>
    match c.runHandler h { s with buffer } with
    | (.ok outcome, s) => c.runQueue n outcome s
    | (.error e, s) => some (.error e, s)

/-- Stores the pages at the end of a request. -/
def finish (c : Cycle) (s : CycleState σ) : CycleState σ :=
  (c.commit s).record .committed

/-- Indicates that handlers were ended by a panic. -/
def isPanicked : Except Failure Outcome → Bool
  | .error e => e.isPanic
  | .ok _ => false

/-- Ends a request when its handlers are done. It gives no result, and stores no pages, if one of them
panicked. -/
def conclude (c : Cycle) : Except Failure Outcome × CycleState σ →
    Option (Except Failure Outcome × CycleState σ)
  | (result, s) => if isPanicked result then none else some (result, c.finish s)

/-- Processes the request, with up to `n` scheduled handlers, and stores its pages whether or not it
succeeds. -/
def process (c : Cycle) (n : Nat) (s : CycleState σ) :
    Option (Except Failure Outcome × CycleState σ) :=
  (c.runHandlers n s).bind c.conclude

/-- Runs one handler, and none that it schedules, and stores the pages unless it panics. -/
def processHandler (c : Cycle) (h : Handler) (s : CycleState σ) :
    Except Failure Outcome × CycleState σ :=
  let (result, s) := c.respond h (s.record (.started h))
  (result, if isPanicked result then s else c.finish s)

end Cycle

end StatefulPages
