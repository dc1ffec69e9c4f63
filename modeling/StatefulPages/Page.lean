import StatefulPages.Heap
import StatefulPages.PageId
import StatefulPages.Parameters

/-!
# Pages

A page is an object with a state: request handling and the code of the application share it and
change it. `Pages` are all page objects there are, and a `PageRef` names one of them.
-/

namespace StatefulPages

/-- The name of a kind of page. -/
abbrev PageClass := String

/-- The state of a page object. -/
structure Page where
  id : PageId
  pageClass : PageClass
  parameters : Parameters := {}
  /-- How often the page has been rendered. -/
  renderCount : UInt32 := 0
  /-- Indicates a page that is not stored and whose URLs carry no id. -/
  stateless : Bool := false
  /-- Indicates a page that was made for a URL, not by the application. -/
  bookmarkable : Bool := false
  /-- Indicates that the page keeps its id for now. -/
  frozen : Bool := false
  /-- What the application keeps in the page. -/
  contents : List UInt8 := []
  deriving DecidableEq, Repr, Inhabited

/-- The identity of a page object. -/
abbrev PageRef := Nat

/-- All page objects. -/
abbrev Pages := Heap Page

end StatefulPages
