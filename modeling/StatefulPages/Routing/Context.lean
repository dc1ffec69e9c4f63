import StatefulPages.Handler

/-!
# What the mappers of a site share

A `Context` holds the segments that mark the URLs which the site makes itself, and the page classes
and listener interfaces that URLs may name.
-/

namespace StatefulPages

/-- The names that the URLs of a site are made of. -/
structure Context where
  /-- The class of the home page, which URLs may name. -/
  home : PageClass
  /-- The first segment of the URLs that the site makes itself. -/
  root : String := "trellis"
  /-- The second segment of the URLs of page instances. -/
  pageMark : String := "page"
  /-- The second segment of the URLs of page classes. -/
  bookmarkableMark : String := "bookmarkable"
  /-- The second segment of the URLs of resources. -/
  resourceMark : String := "resource"
  /-- The segment that stands for `..` in the URL of a resource. -/
  parentMark : String := "$up$"
  /-- The further page classes that URLs may name. -/
  classes : List PageClass := []
  /-- The listener interfaces that URLs may name, with no name twice. -/
  interfaces : List ListenerInterface := ListenerInterface.builtin
  deriving DecidableEq, Repr, Inhabited

namespace Context

/-- Lets URLs name a page class. -/
def registerClass (c : Context) (pageClass : PageClass) : Context :=
  { c with classes := c.classes ++ [pageClass] }

/-- Lets URLs name a listener interface, in place of one that had its name. -/
def registerInterface (c : Context) (interface : ListenerInterface) : Context :=
  { c with interfaces := c.interfaces.filter (·.name ≠ interface.name) ++ [interface] }

/-- Indicates a page class that URLs may name. -/
def isRegistered (c : Context) (pageClass : PageClass) : Bool :=
  pageClass = c.home || c.classes.contains pageClass

/-- The page class of this name, if URLs may name it. -/
def pageClass? (c : Context) (name : String) : Option PageClass :=
  if c.isRegistered name then some name else none

/-- The listener interface of this name. -/
def interface? (c : Context) (name : String) : Option ListenerInterface :=
  c.interfaces.find? (·.name = name)

end Context

end StatefulPages
