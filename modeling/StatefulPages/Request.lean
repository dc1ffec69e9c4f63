import StatefulPages.Address
import StatefulPages.Text.Blank

/-!
# Requests

A request is a URL with headers. `Request.isAjax` tells the requests of scripts from those of the
browser, and `Request.pageIdOverride?` is a page id that takes the place of the one that the URL
addresses.
-/

namespace StatefulPages

/-- A request for a URL. -/
structure Request where
  url : Url
  /-- Names and values, in the order they were sent. -/
  headers : List (String × String) := []
  deriving DecidableEq, Repr, Inhabited

namespace Request

/-- The header that marks the requests of scripts. -/
def ajaxHeader : String := "X-Trellis-Ajax"

/-- The header that names a page id. -/
def pageIdHeader : String := "X-Page-Id"

/-- The query parameter that names a page id. -/
def pageIdParameter : String := "page-id"

/-- Equality up to the case of ASCII letters. -/
def sameName (a b : String) : Bool :=
  a.toList.map Char.toLower == b.toList.map Char.toLower

/-- A request for the URL of this text, without headers. -/
def ofText (text : String) : Request :=
  { url := Url.parse text }

def withHeader (r : Request) (name value : String) : Request :=
  { r with headers := r.headers ++ [(name, value)] }

/-- The request as a script sends it. -/
def ajax (r : Request) : Request :=
  r.withHeader ajaxHeader "true"

/-- The value of the first header of this name, in any case. -/
def header? (r : Request) (name : String) : Option String :=
  (r.headers.find? fun h => sameName h.1 name).map (·.2)

/-- Indicates a request of a script. -/
def isAjax (r : Request) : Bool :=
  (r.header? ajaxHeader).any (sameName · "true")

/-- The text that names a page id: the header unless it is empty, and else the parameter. -/
def overrideText? (r : Request) : Option String :=
  match r.header? pageIdHeader with
  | some value => if value = "" then r.url.value? pageIdParameter else some value
  | none => r.url.value? pageIdParameter

/-- The page id that replaces the one in the URL. White space around it is ignored. -/
def pageIdOverride? (r : Request) : Option PageId :=
  r.overrideText?.bind fun text => Text.signedDecimal32? (Text.trim text.toList)

/-- The address in the URL, with the page id replaced by the one that overrides it. -/
def address? (r : Request) : Option Address :=
  (Address.ofUrl? r.url).map fun a => { a with page := r.pageIdOverride?.or a.page }

end Request

end StatefulPages
