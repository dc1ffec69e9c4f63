import StatefulPages.ComponentPath
import StatefulPages.PageId
import StatefulPages.Text.Decimal
import StatefulPages.Url

/-!
# Addresses of pages and components

The name of the first query parameter of a URL may address a page and one of its components:

* `5` is page 5;
* `5-2.ILinkListener-form-save` is the component `form:save` of page 5, on which the interface
  `ILinkListener` is called, if the page has been rendered twice;
* `-IBehaviorListener.1-panel` is behavior 1 of `panel` on a page that has no id.

`Address.parse?` accepts leading zeros in numbers, and no other second spelling.
-/

namespace StatefulPages

/-- A component, or one of its behaviors, and the interface to call on it. -/
structure ComponentAddress where
  /-- How often the page has been rendered when the address was made. -/
  renderCount : Option UInt32 := none
  interface : String
  /-- Ids from the page down to the component, with `:` between them. -/
  path : String
  behavior : Option Nat := none
  deriving DecidableEq, Repr, Inhabited

/-- A page, a component of a page, or a component of a page without id. -/
structure Address where
  page : Option PageId := none
  component : Option ComponentAddress := none
  deriving DecidableEq, Repr, Inhabited

/-- Indicates a name of a listener interface: an ASCII letter, then ASCII letters, digits or `_`. -/
def isInterfaceName : List Char → Bool
  | [] => false
  | c :: cs => c.isAlpha && cs.all fun c => c.isAlphanum || c == '_'

namespace ComponentAddress

/-- Reads what stands in front of the path: an interface, with a render count before it and the
index of a behavior behind it, or only one of them. Of two parts, the first is the render count if
it is a number. -/
def parseHead? (head : List Char) : Option (Option UInt32 × List Char × Option UInt32) :=
  match Text.splitAll '.' head with
  | [interface] => some (none, interface, none)
  | [a, b] =>
    if (Text.decimal? a).isSome then (Text.decimal32? a).map (some ·, b, none)
    else (Text.decimal32? b).map (none, a, some ·)
  | [a, interface, b] =>
    (Text.decimal32? a).bind fun count => (Text.decimal32? b).map (some count, interface, some ·)
  | _ => none

/-- Reads the address of a component. -/
def parse? (cs : List Char) : Option ComponentAddress :=
  match Text.splitFirst '-' cs with
  | (_, none) => none
  | (head, some path) =>
    if path = [] then none
    else match parseHead? head, ComponentPath.decode? path with
      | some (renderCount, interface, behavior), some path =>
        if isInterfaceName interface then
          some { renderCount, interface := String.ofList interface, path := String.ofList path,
                 behavior := behavior.map (·.toNat) }
        else none
      | _, _ => none

/-- The address of a component as text. -/
def chars (c : ComponentAddress) : List Char :=
  c.renderCount.elim [] (fun n => Text.decimal n.toNat ++ ['.']) ++ c.interface.toList ++
    c.behavior.elim [] (fun i => '.' :: Text.decimal i) ++
    '-' :: ComponentPath.encode c.path.toList

end ComponentAddress

namespace Address

/-- The address of a page. -/
def ofPage (id : PageId) : Address :=
  { page := some id }

/-- Reads the part in front of the first `-`, which is empty or the id of a page. -/
def parsePage? (cs : List Char) : Option (Option PageId) :=
  if cs = [] then some none else (Text.decimal32? cs).map some

/-- Reads the characters of an address. -/
def parseChars? (cs : List Char) : Option Address :=
  match Text.splitFirst '-' cs with
  | (page, none) => if page = [] then none else (Text.decimal32? page).map ofPage
  | (page, some component) =>
    (parsePage? page).bind fun page =>
      (ComponentAddress.parse? component).map fun component => { page, component := some component }

/-- Reads an address. -/
def parse? (text : String) : Option Address :=
  parseChars? text.toList

/-- The characters of an address. -/
def chars (a : Address) : List Char :=
  a.page.elim [] (fun id => Text.decimal id.toNat) ++ a.component.elim [] (fun c => '-' :: c.chars)

/-- An address as text. -/
def text (a : Address) : String :=
  String.ofList a.chars

/-- The address that a query parameter holds: it is the name, and the value is empty. -/
def ofParameter? (p : NamedValue) : Option Address :=
  if p.value = "" then parse? p.name else none

/-- The address that the first query parameter of a URL holds. -/
def ofUrl? (url : Url) : Option Address :=
  url.query.head?.bind ofParameter?

end Address

end StatefulPages
