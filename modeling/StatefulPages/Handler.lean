import StatefulPages.Page

/-!
# Handlers

A handler is what a request asks for: to render a page, to call a listener, to serve a resource, to
replay a response or to redirect. A `PageSource` says where a handler gets its page from. Handlers
are the same (`==`) if they agree in everything but the order of named parameters; live pages agree
only if they are one object.
-/

namespace StatefulPages

/-- Whether the browser is sent to the URL of a page before the page is rendered. -/
inductive RedirectPolicy where
  /-- Also if the request was for that URL. -/
  | always
  /-- Unless the request was for that URL. -/
  | auto
  | never
  deriving DecidableEq, Repr, Inhabited

/-- A file that a component brings along, named within the scope of its owner. -/
structure ResourceName where
  scope : String
  /-- Parts with `/` between them; `..` is the folder above. -/
  name : String
  deriving DecidableEq, Repr, Inhabited

/-- A response that was made before a redirect, to be sent when the browser follows it. -/
structure BufferedResponse where
  contentType : String
  body : List UInt8
  deriving DecidableEq, Repr, Inhabited

/-- A kind of listener that a URL can call. -/
structure ListenerInterface where
  name : String
  /-- Indicates that the page is rendered after a call that no script made. -/
  rendersPage : Bool
  deriving DecidableEq, Repr, Inhabited

namespace ListenerInterface

/-- The interfaces that every site knows. -/
def builtin : List ListenerInterface :=
  [⟨"ILinkListener", true⟩, ⟨"IFormSubmitListener", true⟩, ⟨"IBehaviorListener", false⟩,
    ⟨"IResourceListener", false⟩]

end ListenerInterface

/-- A live page, or the description of a page that is looked up or made when it is needed. -/
structure PageSource where
  id : Option PageId := none
  pageClass : Option PageClass := none
  parameters : Parameters := {}
  /-- The render count that the page should have. -/
  renderCount : Option UInt32 := none
  live : Option PageRef := none
  deriving DecidableEq, Repr, Inhabited

namespace PageSource

instance : BEq PageSource where
  beq a b := a.live == b.live && a.id == b.id && a.pageClass == b.pageClass &&
    a.parameters == b.parameters && a.renderCount == b.renderCount

/-- A live page in this state. -/
def ofState (ref : PageRef) (page : Page) : PageSource :=
  { id := some page.id, pageClass := some page.pageClass, parameters := page.parameters
    live := some ref }

/-- A live page, with the description it has now. -/
def ofPage (pages : Pages) (ref : PageRef) : PageSource :=
  ofState ref (pages.get ref)

/-- A new page of a class. -/
def ofClass (pageClass : PageClass) (parameters : Parameters) : PageSource :=
  { pageClass := some pageClass, parameters }

/-- The render count that the page should have, or the one that a live page has. -/
def expectedRenderCount (s : PageSource) (pages : Pages) : Option UInt32 :=
  s.renderCount.or (s.live.map fun ref => (pages.get ref).renderCount)

/-- Indicates that a page is made when it is needed. -/
def isNew (s : PageSource) : Bool :=
  s.live.isNone && s.id.isNone

/-- Indicates a live page that is stateless. -/
def isStateless (s : PageSource) (pages : Pages) : Bool :=
  s.live.any fun ref => (pages.get ref).stateless

/-- Indicates a page that can be made again from its URL: a live one that was made for a URL, or a
description with a class. -/
def isBookmarkable (s : PageSource) (pages : Pages) : Bool :=
  match s.live with
  | some ref => (pages.get ref).bookmarkable
  | none => s.pageClass.isSome

end PageSource

/-- A call of a listener on a component, or on one of its behaviors. -/
structure ListenerCall where
  page : PageSource
  /-- The path of the component. -/
  path : String
  interface : ListenerInterface
  behavior : Option Nat := none
  deriving DecidableEq, Repr, Inhabited

instance : BEq ListenerCall where
  beq a b := a.page == b.page && a.path == b.path && a.interface == b.interface &&
    a.behavior == b.behavior

/-- What a request asks for. -/
inductive Handler where
  | render (page : PageSource) (policy : RedirectPolicy)
  /-- Makes a page of the class and renders it. -/
  | bookmarkable (pageClass : PageClass) (parameters : Parameters)
  | listener (call : ListenerCall)
  | resource (resource : ResourceName) (parameters : Parameters)
  /-- Replays the response that was buffered for the URL. -/
  | buffered (url : Url) (response : BufferedResponse)
  | redirect (url : Url)
  deriving DecidableEq, Repr, Inhabited

instance : BEq Handler where
  beq
    | .render p a, .render q b => p == q && a == b
    | .bookmarkable c p, .bookmarkable d q => c == d && p == q
    | .listener a, .listener b => a == b
    | .resource r p, .resource s q => r == s && p == q
    | .buffered u r, .buffered v s => u == v && r == s
    | .redirect u, .redirect v => u == v
    | _, _ => false

end StatefulPages
