import StatefulPages.Handler
import StatefulPages.Text.Decimal

/-!
# What becomes of a request

A request ends with an `Outcome`, or it fails. The failures `expired` and `stale` say that a page is
not what a URL took it for, and are turned into outcomes; the others end the request. A panic ends it at
once: nobody gets a result then.
-/

namespace StatefulPages

/-- What the response to a request consists of. -/
inductive Outcome where
  | rendered (page : PageId) (pageClass : PageClass) (policy : RedirectPolicy)
  /-- A listener was called, and made the response itself. -/
  | called (page : PageId) (path : String)
  | redirected (url : Url)
  | resource (resource : ResourceName) (parameters : Parameters)
  | buffered (response : BufferedResponse)
  /-- The page is gone. -/
  | expired (page : PageId)
  /-- The URL means nothing. -/
  | notFound
  deriving DecidableEq, Repr, Inhabited

/-- Why a handler fails. -/
inductive Failure where
  /-- The page is gone, and there is no class to make it from. -/
  | expired (page : PageId)
  /-- The page has been rendered since the URL was made. -/
  | stale (page : PageId) (expected actual : UInt32)
  | componentNotFound (page : PageId) (path : String)
  /-- The component belongs to the page no more. -/
  | componentRemoved (page : PageId) (path : String)
  | behaviorNotFound (path : String) (index count : Nat)
  /-- A page is described by neither an id nor a class. -/
  | noPage
  /-- The code of the application fails. -/
  | application (message : String)
  /-- The code of the application panics. -/
  | panicked (message : String)
  deriving DecidableEq, Repr, Inhabited

namespace Failure

def numberText (n : Nat) : String :=
  String.ofList (Text.decimal n)

/-- Indicates a page that is not what was expected. -/
def isResolution : Failure → Bool
  | expired _ | stale .. => true
  | _ => false

/-- Indicates a panic. -/
def isPanic : Failure → Bool
  | panicked _ => true
  | _ => false

/-- The message for a failure. -/
def message : Failure → String
  | expired page => "Page with id " ++ numberText page.toNat ++ " has expired."
  | stale page expected actual =>
    "A request to page " ++ numberText page.toNat ++ " has been made with stale render count " ++
      numberText expected.toNat ++ "; the page has been rendered " ++ numberText actual.toNat ++
      " times."
  | componentNotFound page path =>
    "Component '" ++ path ++ "' was not found on page " ++ numberText page.toNat ++ "."
  | componentRemoved page path =>
    "Component '" ++ path ++ "' has been removed from page " ++ numberText page.toNat ++ "."
  | behaviorNotFound path index count =>
    "Couldn't find component behavior. Component '" ++ path ++ "' has " ++ numberText count ++
      " behaviors; the request named behavior " ++ numberText index ++ "."
  | noPage => "A page provider must have a page id, a page class, or a page instance."
  | application message | panicked message => message

end Failure

end StatefulPages
