import StatefulPages.Cycle.Application
import StatefulPages.Routing.Mapper
import StatefulPages.Storage.SessionStore

/-!
# The state of a request

Handlers share the page objects, the pages touched so far and the queue of scheduled handlers.

A page that a handler has used is touched: from then on it is what the session has under its id, and
it is stored when the request is committed. So all handlers of a request that name one page work on
one object.
-/

namespace StatefulPages

/-- Something that happens during a request. -/
inductive Event where
  /-- A handler begins. -/
  | started (handler : Handler)
  | scheduled (handler : Handler)
  /-- A page is told whether it keeps its id; `id` is the one it has. -/
  | froze (page : PageRef) (id : PageId) (frozen previous : Bool)
  /-- A listener is called on a component, or on one of its behaviors. -/
  | called (page : PageRef) (id : PageId) (path : String) (behavior : Option Nat)
      (interface : ListenerInterface) (frozen : Bool)
  /-- The application records something. -/
  | noted (note : Note)
  /-- The request is over, and its pages are stored. -/
  | committed
  deriving DecidableEq, Repr, Inhabited

/-- What the handlers of a request share, and what is left for the next request. -/
structure CycleState (σ : Type) where
  /-- All page objects. -/
  pages : Pages := .empty
  /-- The id for the next new page. -/
  nextId : PageId := 1
  /-- The pages to be stored. -/
  touched : List PageRef := []
  /-- The handlers that wait. -/
  queue : List Handler := []
  buffer : Buffer := []
  store : σ
  /-- What has happened, the earliest first. -/
  trace : List Event := []

/-- What does not change during a request. -/
structure Cycle where
  request : Request
  mapper : Mapper
  application : Application
  session : SessionId

variable {σ : Type}

namespace CycleState

/-- The state in which the next request begins. -/
def fresh (s : CycleState σ) : CycleState σ :=
  { s with touched := [], queue := [], trace := [] }

/-- Appends an event to the trace. -/
def record (s : CycleState σ) (e : Event) : CycleState σ :=
  { s with trace := s.trace ++ [e] }

/-- The state of a page object. -/
def page (s : CycleState σ) (ref : PageRef) : Page :=
  s.pages.get ref

/-- Lets a handler wait. -/
def schedule (s : CycleState σ) (h : Handler) : CycleState σ :=
  { s with queue := s.queue ++ [h] }.record (.scheduled h)

/-- Tells a page whether it keeps its id, and gives what it was told before. -/
def freeze (s : CycleState σ) (ref : PageRef) (frozen : Bool) : Bool × CycleState σ :=
  let page := s.page ref
  (page.frozen,
    { s with pages := s.pages.set ref { page with frozen } }.record
      (.froze ref page.id frozen page.frozen))

/-- Marks a page as one to be stored, in place of one that has its id. -/
def touch (s : CycleState σ) (ref : PageRef) : CycleState σ :=
  { s with touched := s.touched.filter (fun p => (s.page p).id ≠ (s.page ref).id) ++ [ref] }

end CycleState

namespace Cycle

variable [SessionStore σ]

/-! ## The pages of the session -/

/-- Looks for a page: among those touched, and then in the store, where it becomes a new object. -/
def find (c : Cycle) (id : PageId) (s : CycleState σ) : Option PageRef × CycleState σ :=
  match s.touched.find? fun p => (s.page p).id = id with
  | some ref => (some ref, s)
  | none =>
    let (data, store) := SessionStore.load s.store c.session id
    match data.bind c.application.deserialize with
    | some page => (some s.pages.next, { s with store, pages := s.pages.add page })
    | none => (none, { s with store })

/-- Stores a page, unless it is stateless or cannot be stored. -/
def storePage (c : Cycle) (s : CycleState σ) (ref : PageRef) : CycleState σ :=
  let page := s.page ref
  if page.stateless then s
  else match c.application.serialize page with
    | some data => { s with store := SessionStore.store s.store c.session page.id data }
    | none => s

/-- Stores the pages that have been touched, in the order of the last touches. -/
def commit (c : Cycle) (s : CycleState σ) : CycleState σ :=
  s.touched.foldl c.storePage { s with touched := [] }

/-- Forgets all pages of the session. -/
def clear (c : Cycle) (s : CycleState σ) : CycleState σ :=
  { s with touched := [], store := SessionStore.removeSession s.store c.session }

omit [SessionStore σ] in
/-- Makes a page of a class. -/
def create (c : Cycle) (pageClass : PageClass) (parameters : Parameters) (s : CycleState σ) :
    Except Failure PageRef × CycleState σ :=
  match c.application.newPage pageClass parameters s.nextId with
  | .ok page =>
    (.ok s.pages.next, { s with pages := s.pages.add page, nextId := s.nextId + 1 })
  | .error e => (.error e, s)

/-- The URL of a handler. -/
def urlFor (c : Cycle) (s : CycleState σ) (h : Handler) : Option Url :=
  c.mapper.encode s.pages h

end Cycle

end StatefulPages
