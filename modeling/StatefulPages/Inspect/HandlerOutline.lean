import StatefulPages.Handler
import StatefulPages.Text.Outline

/-!
# Outlines of handlers
-/

namespace StatefulPages

open Text

/-- A name with its value, as a record of this name. -/
def NamedValue.outline (record : String) (v : NamedValue) : Outline :=
  .record record [("name", .text v.name), ("value", .text v.value)]

def Url.outline (u : Url) : Outline :=
  .record "Url" [("segments", .list Outline.text u.segments),
    ("query_parameters", .list (NamedValue.outline "QueryParameter") u.query)]

def Parameters.outline (p : Parameters) : Outline :=
  .record "PageParameters" [("indexed", .list Outline.text p.indexed),
    ("named", .list (NamedValue.outline "NamedParameter") p.named)]

def RedirectPolicy.outline : RedirectPolicy → Outline
  | always => .plain "AlwaysRedirect"
  | auto => .plain "AutoRedirect"
  | never => .plain "NeverRedirect"

def ResourceName.outline (r : ResourceName) : Outline :=
  .record "ResourceReference" [("scope", .text r.scope), ("name", .text r.name)]

def BufferedResponse.outline (r : BufferedResponse) : Outline :=
  .record "BufferedResponse" [("content_type", .text r.contentType),
    ("body", .list (fun b => .number b.toNat) r.body)]

def ListenerInterface.outline (i : ListenerInterface) : Outline :=
  .record "ListenerInterface" [("name", .text i.name),
    ("render_page_after_invocation", .truth i.rendersPage)]

/-- A number of 32 bits that may be missing. -/
def wordOutline (n : Option UInt32) : Outline :=
  .option (fun n => .number n.toNat) n

def PageSource.outline (s : PageSource) : Outline :=
  .record "PageProvider" [("page_id", wordOutline s.id),
    ("page_class", .option Outline.text s.pageClass),
    ("page_parameters", s.parameters.outline), ("render_count", wordOutline s.renderCount),
    ("has_instance", .truth s.live.isSome)]

def ListenerCall.outline (c : ListenerCall) : Outline :=
  .record "ListenerInterfaceRequestHandler" [("page", c.page.outline),
    ("component_path", .text c.path), ("listener_interface", c.interface.outline),
    ("behavior_index", .option Outline.number c.behavior)]

def Handler.outline : Handler → Outline
  | render page policy =>
    .record "RenderPage" [("page", page.outline), ("redirect_policy", policy.outline)]
  | bookmarkable pageClass parameters =>
    .record "BookmarkablePage"
      [("page_class", .text pageClass), ("parameters", parameters.outline)]
  | listener call => .wrapped "ListenerInterface" call.outline
  | resource name parameters =>
    .record "ResourceReference"
      [("reference", name.outline), ("parameters", parameters.outline)]
  | buffered url response =>
    .record "BufferedResponse" [("url", url.outline), ("response", response.outline)]
  | redirect url => .wrapped "Redirect" url.outline

end StatefulPages
