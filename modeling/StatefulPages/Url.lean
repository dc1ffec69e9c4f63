import StatefulPages.Text.Percent
import StatefulPages.Text.Split

/-!
# Request URLs

A URL relative to the root of the application, as decoded path segments and query parameters.
`Url.parse` reads every text; `Url.text` writes a text with `/` in front, in which a parameter
without a value is written as its name alone.
-/

namespace StatefulPages

/-- A name with a value: a query parameter of a URL, or a named parameter of a page. -/
structure NamedValue where
  name : String
  value : String := ""
  deriving DecidableEq, Repr, Inhabited

/-- A URL relative to the root of the application, with all escapes decoded. -/
structure Url where
  segments : List String := []
  query : List NamedValue := []
  deriving DecidableEq, Repr, Inhabited

namespace Url

/-! ## Text -/

/-- The characters that a path segment holds as they are: printable ASCII characters, less the
space, the quote, the grave accent, braces and those of `# % / < > ?`. -/
def plainInSegment (c : Char) : Bool :=
  0x20 < c.toNat && c.toNat < 0x7F && !"\"#%/<>?\x60\x7b\x7d".toList.contains c

/-- The characters that a query parameter holds as they are. -/
def plainInQuery (c : Char) : Bool :=
  plainInSegment c && !"&=+".toList.contains c

/-- Reads an escaped text. -/
def decodePart (cs : List Char) : String :=
  String.ofList (Text.Percent.decode cs)

/-- Reads a query parameter; without a `=` it has the empty value. -/
def parseParameter (cs : List Char) : NamedValue :=
  match Text.splitFirst '=' cs with
  | (name, none) => { name := decodePart name }
  | (name, some value) => { name := decodePart name, value := decodePart value }

/-- Reads the path; an empty one has no segments. -/
def parsePath (cs : List Char) : List String :=
  if cs = [] then [] else (Text.splitAll '/' cs).map decodePart

/-- Reads the text after the `?`; empty parameters are dropped. -/
def parseQuery (cs : List Char) : List NamedValue :=
  ((Text.splitAll '&' cs).filter (· ≠ [])).map parseParameter

/-- Reads a URL without the `/` in front. -/
def parseRelative (cs : List Char) : Url :=
  let (path, query) := Text.splitFirst '?' cs
  { segments := parsePath path, query := query.elim [] parseQuery }

/-- Reads the characters of a URL; one `/` in front is optional. -/
def parseChars : List Char → Url
  | '/' :: cs => parseRelative cs
  | cs => parseRelative cs

/-- Reads a URL. -/
def parse (text : String) : Url :=
  parseChars text.toList

/-- A parameter as text; the `=` is left out if the value is empty. -/
def parameterText (p : NamedValue) : List Char :=
  Text.Percent.encode plainInQuery p.name.toList ++
    if p.value = "" then [] else '=' :: Text.Percent.encode plainInQuery p.value.toList

/-- The path as text. -/
def pathText (segments : List String) : List Char :=
  ['/'].intercalate (segments.map fun s => Text.Percent.encode plainInSegment s.toList)

/-- The query as text, with the `?` in front if there are parameters. -/
def queryText : List NamedValue → List Char
  | [] => []
  | query => '?' :: ['&'].intercalate (query.map parameterText)

/-- The characters of a URL. -/
def chars (url : Url) : List Char :=
  '/' :: (pathText url.segments ++ queryText url.query)

/-- A URL as text. -/
def text (url : Url) : String :=
  String.ofList url.chars

/-! ## Parts -/

/-- Indicates the root of the application, without parameters. -/
def isEmpty (url : Url) : Bool :=
  url.segments.isEmpty && url.query.isEmpty

def pushSegment (url : Url) (segment : String) : Url :=
  { url with segments := url.segments ++ [segment] }

/-- Replaces a segment; beyond the last one nothing changes. -/
def setSegment (url : Url) (i : Nat) (segment : String) : Url :=
  { url with segments := url.segments.set i segment }

def pushParameter (url : Url) (p : NamedValue) : Url :=
  { url with query := url.query ++ [p] }

/-- The segments and parameters of both. -/
def append (url other : Url) : Url :=
  { segments := url.segments ++ other.segments, query := url.query ++ other.query }

instance : Append Url := ⟨append⟩

/-- Moves the parameter at `i` to the front; beyond the last one nothing changes. -/
def moveToFront (url : Url) (i : Nat) : Url :=
  match url.query[i]? with
  | some p => { url with query := p :: url.query.eraseIdx i }
  | none => url

/-- The value of the first parameter of this name. -/
def value? (url : Url) (name : String) : Option String :=
  (url.query.find? (·.name = name)).map (·.value)

/-- Indicates whether the segments begin with `stem`. -/
def startsWith (url : Url) (stem : List String) : Bool :=
  stem.isPrefixOf url.segments

/-- What is left without the first `n` segments and, if asked, without the first parameter. -/
def remainder (url : Url) (n : Nat) (skipFirstParameter : Bool) : Url :=
  { segments := url.segments.drop n
    query := if skipFirstParameter then url.query.drop 1 else url.query }

end Url

end StatefulPages
