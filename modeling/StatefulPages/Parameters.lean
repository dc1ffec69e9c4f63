import StatefulPages.Url

/-!
# Page parameters

The parameters that a page is created with: indexed ones, which follow each other, and named ones,
in the order they were added. Parameters are the same (`==`) if they have the same indexed ones and,
when both are sorted, the same named ones.

An `Encoder` writes parameters into a URL. `Encoder.standard` writes segments and query parameters,
`Encoder.path` writes each named parameter as two segments.
-/

namespace StatefulPages

/-- The order of named values: by name, and by value where the names are the same. -/
def NamedValue.le (a b : NamedValue) : Bool :=
  a.name < b.name || (a.name = b.name && a.value ≤ b.value)

/-- The parameters of a page. -/
structure Parameters where
  indexed : List String := []
  named : List NamedValue := []
  deriving DecidableEq, Repr, Inhabited

namespace Parameters

/-- The named parameters, sorted. -/
def sorted (p : Parameters) : List NamedValue :=
  p.named.mergeSort NamedValue.le

/-- The order in which named parameters were added makes no difference. -/
instance : BEq Parameters where
  beq a b := a.indexed == b.indexed && a.named.length == b.named.length && a.sorted == b.sorted

def isEmpty (p : Parameters) : Bool :=
  p.indexed.isEmpty && p.named.isEmpty

/-- Adds a named parameter after those there are, of this name also. -/
def add (p : Parameters) (name value : String) : Parameters :=
  { p with named := p.named ++ [{ name, value }] }

/-- Removes all named parameters of this name. -/
def remove (p : Parameters) (name : String) : Parameters :=
  { p with named := p.named.filter (·.name ≠ name) }

/-- Makes this the only value of the name. -/
def set (p : Parameters) (name value : String) : Parameters :=
  (p.remove name).add name value

/-- The first value of a name. -/
def get? (p : Parameters) (name : String) : Option String :=
  (p.named.find? (·.name = name)).map (·.value)

/-- All values of a name. -/
def values (p : Parameters) (name : String) : List String :=
  (p.named.filter (·.name = name)).map (·.value)

/-- Sets an indexed parameter; those missing in front of it become empty. -/
def setIndexed (p : Parameters) (i : Nat) (value : String) : Parameters :=
  { p with indexed := (p.indexed ++ List.replicate (i + 1 - p.indexed.length) "").set i value }

end Parameters

/-- A way to write page parameters into a URL. -/
structure Encoder where
  decode : Url → Parameters
  encode : Parameters → Url

namespace Encoder

/-- Indexed parameters are segments, named ones are query parameters. -/
def standard : Encoder where
  decode url :=
    let indexed := url.segments.zipIdx.foldl (fun p s => p.setIndexed s.2 s.1) {}
    url.query.foldl (fun p v => p.add v.name v.value) indexed
  encode p := { segments := p.indexed, query := p.named }

/-- Each two segments are a name and a value. A pair with an empty name and a last single segment
are no parameter. -/
def pairs : List String → List NamedValue
  | name :: value :: rest => if name = "" then pairs rest else { name, value } :: pairs rest
  | _ => []

/-- Named parameters are pairs of segments; query parameters are read as further ones. Indexed
parameters are not written. -/
def path : Encoder where
  decode url := { named := pairs url.segments ++ url.query }
  encode p := { segments := p.named.flatMap fun v => [v.name, v.value] }

end Encoder

end StatefulPages
