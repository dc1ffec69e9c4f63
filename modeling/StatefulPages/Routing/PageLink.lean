import StatefulPages.Request
import StatefulPages.Routing.Context

/-!
# Links to pages of a class

A `PageLink` is what the URL of a page says: the class of the page, its parameters and, if there is
one, the address of an instance or of a component. The mappers of pages differ in the segments in
front; all write the address as the first query parameter and then the parameters of the page.

A parameter of the page must not be taken for an address. So a URL without an address begins its
query with a parameter that does not read as one, if the page has such a parameter.
-/

namespace StatefulPages

/-- What the URL of a page says. -/
structure PageLink where
  address : Option Address
  pageClass : PageClass
  parameters : Parameters
  deriving DecidableEq, Repr, Inhabited

/-- Reads the parameters of a page behind the first `n` segments and behind the address. -/
def Encoder.readParameters (encoder : Encoder) (url : Url) (n : Nat) : Parameters :=
  encoder.decode (url.remainder n (Address.ofUrl? url).isSome)

/-- Indicates a parameter that reads as an address. -/
def NamedValue.isAddress (p : NamedValue) : Bool :=
  (Address.ofParameter? p).isSome

/-- Begins the query with the first parameter that does not read as an address. -/
def Url.plainFirst (url : Url) : Url :=
  match url.query.findIdx? (!·.isAddress) with
  | some i => url.moveToFront i
  | none => url

/-- Adds an address, as the first query parameter, and the parameters of a page. -/
def Url.withPage (base : Url) (address : Option Address) (parameters : Parameters)
    (encoder : Encoder) : Url :=
  let text := address.elim "" (·.text)
  let encoded := encoder.encode parameters
  if text = "" then
    base ++ (if base.query.isEmpty then encoded.plainFirst else encoded)
  else base.pushParameter { name := text } ++ encoded

/-- The address of the component that a listener is called on. -/
def ListenerCall.componentAddress (call : ListenerCall) (pages : Pages) : ComponentAddress :=
  { renderCount := call.page.expectedRenderCount pages, interface := call.interface.name
    path := call.path, behavior := call.behavior }

/-- What a URL with this address asks for on a page: with a component, a call of a listener, if the
site knows the interface. -/
def Context.handlerFor? (c : Context) (page : Option UInt32 → PageSource) :
    Option ComponentAddress → Option Handler
  | none => some (.render (page none) .auto)
  | some component =>
    (c.interface? component.interface).map fun interface =>
      .listener { page := page component.renderCount, path := component.path, interface
                  behavior := component.behavior }

namespace PageLink

/-- What a link asks for: without an address, a new page of the class. -/
def handler? (link : PageLink) (c : Context) : Option Handler :=
  match link.address with
  | none => some (.bookmarkable link.pageClass link.parameters)
  | some address =>
    c.handlerFor? (fun renderCount =>
      { id := address.page, pageClass := some link.pageClass, parameters := link.parameters
        renderCount }) address.component

/-- The class of a page if it is accepted. If it must be, the page also has to be one that can be
made again from its URL. -/
def acceptedClass? (pages : Pages) (accepts : PageClass → Bool) (mustBeBookmarkable : Bool)
    (page : PageSource) : Option PageClass :=
  page.pageClass.bind fun pageClass =>
    if accepts pageClass && (!mustBeBookmarkable || page.isBookmarkable pages) then some pageClass
    else none

/-- The id of a page that URLs carry; those of a stateless page carry none. -/
def idInUrl (pages : Pages) (page : PageSource) : Option PageId :=
  if page.isStateless pages then none else page.id

/-- The link for a handler of a page whose class is accepted. -/
def ofHandler? (pages : Pages) (accepts : PageClass → Bool) (mustBeBookmarkable : Bool) :
    Handler → Option PageLink
  | .bookmarkable pageClass parameters =>
    if accepts pageClass then some { address := none, pageClass, parameters } else none
  | .render page _ =>
    (acceptedClass? pages accepts mustBeBookmarkable page).map fun pageClass =>
      { address := (idInUrl pages page).map Address.ofPage, pageClass
        parameters := page.parameters }
  | .listener call =>
    (acceptedClass? pages accepts mustBeBookmarkable call.page).map fun pageClass =>
      { address := some { page := idInUrl pages call.page
                          component := some (call.componentAddress pages) }
        pageClass, parameters := call.page.parameters }
  | _ => none

end PageLink

end StatefulPages
