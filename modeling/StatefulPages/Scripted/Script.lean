import StatefulPages.Cycle.Application
import StatefulPages.Scripted.PageFormat

/-!
# Scripted applications

A `Script` describes an application by lists: the classes of its pages, the components on them and
what these do, one action after the other, when they are called. It serves to try out how a site
handles requests.

* `lossless_application`: pages of a scripted application are read back as they were written.
-/

namespace StatefulPages

/-- A step of what a scripted component does. -/
inductive Action where
  /-- Fails; what follows is not done. -/
  | fail
  /-- Panics; what follows is not done. -/
  | panic
  /-- Counts one more rendering of the page. -/
  | bump
  /-- Gives the page a new id, unless it is frozen. -/
  | newId
  /-- Lets the page take new ids again. -/
  | thaw
  | schedule (handler : Handler)
  /-- Records the URL of a handler. -/
  | urlFor (handler : Handler)
  /-- Records the URLs of the page and of the call that is being made. -/
  | selfUrl
  /-- Stores the pages that have been touched. -/
  | commit
  /-- Forgets all pages of the session. -/
  | clear
  /-- Records the class of a page. -/
  | find (page : PageId)
  deriving DecidableEq, Repr, Inhabited

/-- A component that follows a list of actions. -/
structure ScriptedComponent where
  path : String
  /-- What the component says about the page that it belongs to, if that is not its own page. -/
  owner : Option (Option PageId) := none
  /-- The number of behaviors, which act like the component. -/
  behaviors : Nat := 0
  actions : List Action := []
  deriving DecidableEq, Repr, Inhabited

/-- What the pages of a class are like. -/
structure PageScript where
  renderCount : UInt32 := 0
  stateless : Bool := false
  frozen : Bool := false
  bookmarkable : Bool := true
  /-- Indicates pages that cannot be stored. -/
  unserializable : Bool := false
  components : List ScriptedComponent := []
  deriving DecidableEq, Repr, Inhabited

/-- The pages of an application, by class. -/
abbrev Script := List (PageClass × PageScript)

namespace Action

/-- What an action does when `call` is made, where `page` is the page itself. -/
def program (page : PageRef) (call : ListenerCall) (next : Program) : Action → Program
  | fail => .fail (.application ("listener of " ++ call.path ++ " failed"))
  | panic => .fail (.panicked ("listener of " ++ call.path ++ " panicked"))
  | bump => .read page fun state =>
      .write page { state with renderCount := state.renderCount + 1 } next
  | newId => .read page fun state =>
      if state.frozen then next else .takeId fun id => .write page { state with id } next
  | thaw => .read page fun state => .write page { state with frozen := false } next
  | schedule handler => .schedule handler next
  | urlFor handler => .urlFor handler fun url =>
      .note { topic := "url_for", values := [url.map (·.text)] } next
  | selfUrl => .read page fun state =>
      let source := PageSource.ofState page state
      .urlFor (.render source .auto) fun url =>
      .urlFor (.listener { call with page := source }) fun callUrl =>
      .note { topic := "self_url", values := [url.map (·.text), callUrl.map (·.text)] } next
  | commit => .commit next
  | clear => .clear next
  | find id => .find id fun
      | some found => .read found fun state =>
          .note { topic := "find", values := [some state.pageClass] } next
      | none => .note { topic := "find", values := [none] } next

end Action

namespace ScriptedComponent

/-- Does what the component does, for a call on it or on the behavior at an index. -/
def listener (c : ScriptedComponent) (page : PageRef) (behavior : Option Nat) : Listener :=
  fun interface =>
    let call : ListenerCall := { page := {}, path := c.path, interface, behavior }
    c.actions.foldr (fun action next => action.program page call next) .done

/-- The component on a page. -/
def component (c : ScriptedComponent) (pages : Pages) (page : PageRef) : Component where
  owner := c.owner.getD (some (pages.get page).id)
  listener := c.listener page none
  behaviors := (List.range c.behaviors).map fun i => c.listener page (some i)

end ScriptedComponent

namespace Script

/-- Makes a page of a class that the script describes. -/
def newPage (s : Script) (pageClass : PageClass) (parameters : Parameters) (id : PageId) :
    Except Failure Page :=
  match s.lookup pageClass with
  | some p => .ok { id, pageClass, parameters, renderCount := p.renderCount
                    stateless := p.stateless, bookmarkable := p.bookmarkable, frozen := p.frozen }
  | none => .error (.application ("no such page class: " ++ pageClass))

/-- The first component at exactly this path. -/
def component? (s : Script) (pages : Pages) (page : PageRef) (path : String) : Option Component :=
  (s.lookup (pages.get page).pageClass).bind fun p =>
    (p.components.find? (·.path = path)).map (·.component pages page)

/-- The bytes of a page that can be stored. -/
def serialize (s : Script) (page : Page) : Option (List UInt8) :=
  if (s.lookup page.pageClass).any (·.unserializable) then none else some page.toBytes

/-- The application that the script describes. -/
def application (s : Script) : Application where
  newPage := s.newPage
  component? := s.component?
  serialize := s.serialize
  deserialize := Page.ofBytes?

/-- Pages are read back as they were written. -/
theorem lossless_application (s : Script) : s.application.Lossless := by
  intro page data h
  have hs : s.serialize page = some data := h
  rw [serialize] at hs
  split at hs
  · exact absurd hs (by simp)
  · cases hs
    exact page.ofBytes?_toBytes

end Script

end StatefulPages
