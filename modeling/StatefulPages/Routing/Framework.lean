import StatefulPages.Routing.Mapper
import StatefulPages.Routing.PageLink

/-!
# The mappers that every site has

* `Mapper.homePage`: the root of the application is the home page;
* `Mapper.pageInstance`: `root/page?5` is a page by its id alone;
* `Mapper.bookmarkable`: `root/bookmarkable/Class/...` is a page of a registered class;
* `Mapper.resource`: `root/resource/scope/name` is a resource.
-/

namespace StatefulPages.Mapper

/-- Indicates a URL below the root segment and one of the marks. -/
def isBelow (c : Context) (mark : String) (url : Url) : Bool :=
  url.startsWith [c.root, mark]

/-! ## The home page -/

/-- The home page, at the URL without segments. It writes no indexed parameters, which would be
segments. -/
def homePage (c : Context) : Mapper :=
  ofRequests (fun _ => 0)
    (fun r =>
      if r.url.segments.isEmpty then
        { address := r.address?, pageClass := c.home,
          parameters := Encoder.standard.readParameters r.url 0 : PageLink }.handler? c
      else none)
    (fun pages h =>
      (PageLink.ofHandler? pages (· = c.home) false h).bind fun link =>
        if link.parameters.indexed.isEmpty then
          some (Url.withPage {} link.address link.parameters .standard)
        else none)

/-! ## Page instances -/

/-- Reads the URL of a page instance. -/
def decodePageInstance? (c : Context) (r : Request) : Option Handler :=
  if isBelow c c.pageMark r.url && r.url.segments.length == 2 then
    r.address?.bind fun address =>
      address.page.bind fun id =>
        c.handlerFor? (fun renderCount => { id := some id, renderCount }) address.component
  else none

/-- The address of a page instance that a handler needs. -/
def instanceAddress? (pages : Pages) : Handler → Option Address
  | .render page _ => (PageLink.idInUrl pages page).map Address.ofPage
  | .listener call =>
    (PageLink.idInUrl pages call.page).map fun id =>
      { page := some id, component := some (call.componentAddress pages) }
  | _ => none

/-- Pages by their id alone. -/
def pageInstance (c : Context) : Mapper :=
  ofRequests (fun r => if isBelow c c.pageMark r.url then 998 else 0) (decodePageInstance? c)
    (fun pages h =>
      (instanceAddress? pages h).map fun address =>
        { segments := [c.root, c.pageMark], query := [{ name := address.text }] })

/-! ## Page classes -/

/-- Reads the URL of a registered page class. -/
def decodeBookmarkable? (c : Context) (r : Request) : Option Handler :=
  if isBelow c c.bookmarkableMark r.url then
    r.url.segments[2]?.bind fun name =>
      (c.pageClass? name).bind fun pageClass =>
        { address := r.address?, pageClass,
          parameters := Encoder.standard.readParameters r.url 3 : PageLink }.handler? c
  else none

/-- Pages of registered classes. A page that the application made is not written, as its URL could
not make it again. -/
def bookmarkable (c : Context) : Mapper :=
  ofRequests (fun r => if isBelow c c.bookmarkableMark r.url then 2 else 0) (decodeBookmarkable? c)
    (fun pages h =>
      (PageLink.ofHandler? pages c.isRegistered true h).map fun link =>
        Url.withPage { segments := [c.root, c.bookmarkableMark, link.pageClass] } link.address
          link.parameters .standard)

/-! ## Resources -/

/-- A part of a resource's name, from a segment. -/
def partOfSegment (c : Context) (segment : String) : String :=
  if segment = c.parentMark then ".." else segment

/-- The segment for a part of a resource's name. Proxies and browsers would take `..` away. -/
def segmentOfPart (c : Context) (part : String) : String :=
  if part = ".." then c.parentMark else part

/-- The parts of a resource's name. -/
def nameParts (name : String) : List String :=
  (Text.splitAll '/' name.toList).map String.ofList

/-- Reads the URL of a resource. Scope and name are not empty, and the query holds its
parameters. -/
def decodeResource? (c : Context) (r : Request) : Option Handler :=
  if isBelow c c.resourceMark r.url then
    match r.url.segments.drop 2 with
    | scope :: segments =>
      let parts := segments.map (partOfSegment c)
      if scope = "" ∨ parts.all (· = "") then none
      else some (.resource { scope, name := "/".intercalate parts } { named := r.url.query })
    | [] => none
  else none

/-- Writes the URL of a resource; indexed parameters are left out. -/
def encodeResource? (c : Context) : Handler → Option Url
  | .resource resource parameters =>
    some { segments := [c.root, c.resourceMark, resource.scope] ++
             (nameParts resource.name).map (segmentOfPart c)
           query := parameters.named }
  | _ => none

/-- Resources by scope and name. -/
def resource (c : Context) : Mapper :=
  ofRequests (fun r => if isBelow c c.resourceMark r.url then maxScore else 0) (decodeResource? c)
    (fun _ h => encodeResource? c h)

end StatefulPages.Mapper
