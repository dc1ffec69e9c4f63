import StatefulPages.Cycle.Outcome
import StatefulPages.Request

/-!
# Applications

Request handling knows an application by the pages that it makes, by the components on them and by
the way it turns pages into bytes. What a listener does is a `Program`: a tree of the steps that it
may take, each with what follows for every answer that it may get.
-/

namespace StatefulPages

/-- Something that a program records. -/
structure Note where
  topic : String
  values : List (Option String) := []
  deriving DecidableEq, Repr, Inhabited

/-- What the code of an application does during a request. -/
inductive Program where
  | done
  /-- Fails or panics; nothing follows. -/
  | fail (failure : Failure)
  /-- Asks for the request. -/
  | request (next : Request → Program)
  /-- Lets a handler run after the current one and those scheduled before. -/
  | schedule (handler : Handler) (next : Program)
  /-- Asks for the URL of a handler. -/
  | urlFor (handler : Handler) (next : Option Url → Program)
  /-- Looks for a page of the session. -/
  | find (page : PageId) (next : Option PageRef → Program)
  /-- Makes a page of a class. -/
  | create (pageClass : PageClass) (parameters : Parameters)
      (next : Except Failure PageRef → Program)
  /-- Marks a page as one to be stored. -/
  | touch (page : PageRef) (next : Program)
  /-- Stores the pages that have been touched. -/
  | commit (next : Program)
  /-- Forgets all pages of the session. -/
  | clear (next : Program)
  | read (page : PageRef) (next : Page → Program)
  | write (page : PageRef) (state : Page) (next : Program)
  /-- Takes the next page id. -/
  | takeId (next : PageId → Program)
  | note (note : Note) (next : Program)

/-- What is done when an interface is called. -/
abbrev Listener := ListenerInterface → Program

/-- A component, as request handling sees it. -/
structure Component where
  /-- The page that it belongs to, unless it has been removed from it. -/
  owner : Option PageId
  listener : Listener
  /-- The listeners of its behaviors. -/
  behaviors : List Listener := []

/-- What request handling has to know of an application. -/
structure Application where
  /-- Makes a page of a class; a new page may take the id. -/
  newPage : PageClass → Parameters → PageId → Except Failure Page
  /-- The component at a path of a page. -/
  component? : Pages → PageRef → String → Option Component
  /-- The bytes of a page, unless it cannot be stored. -/
  serialize : Page → Option (List UInt8)
  /-- The page of these bytes. -/
  deserialize : List UInt8 → Option Page

/-- Indicates that a page is read back as it was written. -/
def Application.Lossless (a : Application) : Prop :=
  ∀ page data, a.serialize page = some data → a.deserialize data = some page

end StatefulPages
