import StatefulPages.Inspect.HandlerOutline
import StatefulPages.Inspect.Problem
import StatefulPages.Routing.Site
import StatefulPages.Text.Quoted

/-!
# Trying out URLs

`tryUrl` shows what a site makes of a URL, and the URL that it writes for that.
-/

namespace StatefulPages.Inspect

/-- A site in the words of the command line. -/
structure SiteOptions where
  home : PageClass := "Home"
  /-- Mounts, as `PATH=CLASS`. -/
  mounts : List String := []
  /-- The page classes that URLs may name. -/
  classes : List PageClass := []
  /-- The names of further interfaces, after which the page is rendered. -/
  listeners : List String := []
  deriving DecidableEq, Repr, Inhabited

/-- Mounts a page class, as `PATH=CLASS` says. -/
def mountBy (site : Site) (mount : String) : Except Problem Site :=
  match Text.splitLast? '=' mount.toList with
  | none =>
    .error { message := "A mount must have the form PATH=CLASS, not " ++ Text.quoted mount }
  | some (path, pageClass) =>
    match site.mountPage (String.ofList path) (String.ofList pageClass) with
    | .ok site => .ok site
    | .error e => .error { message := e.message }

/-- The site that the options describe. -/
def SiteOptions.site (o : SiteOptions) : Except Problem Site :=
  let context := o.classes.foldl Context.registerClass { home := o.home }
  let context := o.listeners.foldl (fun c name => c.registerInterface ⟨name, true⟩) context
  o.mounts.foldlM mountBy { context }

/-- The lines for a handler and its URL. -/
def handlerLines (site : Site) (h : Handler) : List String :=
  let url := (site.mapper.encode .empty h).elim "(none; no mapper encodes this handler)" (·.text)
  let lines := match h.outline with
    | line :: lines => ("handler : " ++ line) :: lines
    | [] => []
  lines ++ ["encoded : " ++ url]

/-- Shows what a site makes of a request. -/
def tryRequest (site : Site) (r : Request) : List String :=
  ["url     : " ++ r.url.text,
    "score   : " ++ String.ofList (Text.decimal (site.mapper.score [] r))] ++
    match (site.mapper.decode [] r).1 with
    | some h => handlerLines site h
    | none => ["handler : (none; the URL does not match any mapper)"]

/-- Shows what a site makes of a URL, for a script if `ajax` is set. -/
def tryUrl (o : SiteOptions) (url : String) (ajax : Bool) : Except Problem (List String) :=
  o.site.map fun site =>
    let r := Request.ofText url
    tryRequest site (if ajax then r.ajax else r)

end StatefulPages.Inspect
