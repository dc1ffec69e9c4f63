import StatefulPages.Routing.Mapper
import StatefulPages.Routing.PageLink
import StatefulPages.Text.Quoted

/-!
# Mounted pages

A page class can be mounted at a path such as `/users/${id}`. A placeholder takes any segment, as
the value of a named parameter of the page.

A `MountPath` has at least one segment, no empty one, and no `/` in any. What is wrong with a path
that cannot be read is a `MountError`.
-/

namespace StatefulPages

/-- A segment of the path that a page is mounted at. -/
inductive MountSegment where
  | literal (text : String)
  /-- Takes any segment as the value of a named parameter. -/
  | placeholder (name : String)
  deriving DecidableEq, Repr, Inhabited

namespace MountSegment

/-- The text of a literal, or the name of a placeholder. -/
def label : MountSegment → String
  | literal text => text
  | placeholder name => name

/-- Indicates that a segment of a URL suits. -/
def fits : MountSegment → String → Bool
  | literal text, segment => text == segment
  | placeholder _, _ => true

/-- What the parts of a path are: neither empty nor with a `/`. -/
def IsPart (s : MountSegment) : Prop :=
  s.label ≠ "" ∧ '/' ∉ s.label.toList

instance (s : MountSegment) : Decidable s.IsPart := inferInstanceAs (Decidable (_ ∧ _))

end MountSegment

/-- What is wrong with the path to mount a page at. -/
inductive MountError where
  /-- A segment begins like a placeholder and does not end with a brace. -/
  | unterminated (path segment : String)
  | unnamed (path : String)
  /-- There are no segments. -/
  | noSegments (path : String)
  deriving DecidableEq, Repr, Inhabited

/-- The message for an error. -/
def MountError.message : MountError → String
  | unterminated path segment =>
    "Mount path " ++ Text.quoted path ++ " has an unterminated placeholder: " ++
      Text.quoted segment
  | unnamed path => "Mount path " ++ Text.quoted path ++ " has a placeholder without a name."
  | noSegments path =>
    "A mount path must have at least one segment; " ++ Text.quoted path ++ " has none."

namespace MountSegment

/-- Reads a segment of the path `path`. -/
def read (path : String) (cs : List Char) : Except MountError MountSegment :=
  if "$\x7b".toList.isPrefixOf cs then
    let inner := cs.drop 2
    if inner.getLast? = some '\x7d' then
      if inner.dropLast = [] then .error (.unnamed path)
      else .ok (.placeholder (String.ofList inner.dropLast))
    else .error (.unterminated path (String.ofList cs))
  else .ok (.literal (String.ofList cs))

/-- Reads the segments of the path `path`. -/
def readAll (path : String) : List (List Char) → Except MountError (List MountSegment)
  | [] => .ok []
  | part :: parts =>
    match read path part, readAll path parts with
    | .error e, _ => .error e
    | .ok _, .error e => .error e
    | .ok s, .ok ss => .ok (s :: ss)

theorem isPart_of_read {path : String} {cs : List Char} {s : MountSegment} (hne : cs ≠ [])
    (hsep : '/' ∉ cs) (h : read path cs = .ok s) : s.IsPart := by
  unfold read at h
  split at h
  · dsimp only at h
    split at h
    · split at h
      · cases h
      · rename_i hname
        cases h
        refine ⟨fun h => hname ?_, fun h => hsep ?_⟩
        · simpa [label] using h
        · rw [label, String.toList_ofList] at h
          exact List.mem_of_mem_drop (List.dropLast_subset _ h)
    · cases h
  · cases h
    simp [IsPart, label, hne, hsep]

theorem isPart_of_readAll {path : String} {parts : List (List Char)} {ss : List MountSegment}
    (hparts : ∀ part ∈ parts, part ≠ [] ∧ '/' ∉ part) (h : readAll path parts = .ok ss) :
    ∀ s ∈ ss, s.IsPart := by
  induction parts generalizing ss with
  | nil =>
    cases h
    simp
  | cons part parts ih =>
    simp only [readAll] at h
    split at h
    · cases h
    · cases h
    · rename_i hs hss
      cases h
      have hp := hparts part (by simp)
      simp only [List.mem_cons, forall_eq_or_imp]
      exact ⟨isPart_of_read hp.1 hp.2 hs, ih (fun q hq => hparts q (by simp [hq])) hss⟩

end MountSegment

/-- A page class mounted at a path. -/
structure Mount where
  segments : List MountSegment
  pageClass : PageClass
  /-- Writes the parameters that no placeholder holds. -/
  encoder : Encoder := .standard
  /-- Sends requests for the root of the application on to the path, if the class is that of the
  home page. -/
  redirectsHome : Bool := true
  ne_nil : segments ≠ []
  isPart : ∀ s ∈ segments, s.IsPart

namespace Mount

/-- The parts of a path, less the empty ones. -/
def pathParts (path : String) : List (List Char) :=
  (Text.splitAll '/' path.toList).filter (· ≠ [])

theorem part_of_mem_pathParts {path : String} {part : List Char} (h : part ∈ pathParts path) :
    part ≠ [] ∧ '/' ∉ part := by
  simp only [pathParts, List.mem_filter, decide_eq_true_eq] at h
  exact ⟨h.2, Text.sep_notMem_of_mem_splitAll h.1⟩

/-- Mounts a page class at a path. -/
def atPath (path : String) (pageClass : PageClass) : Except MountError Mount :=
  match h : MountSegment.readAll path (pathParts path) with
  | .error e => .error e
  | .ok [] => .error (.noSegments path)
  | .ok (s :: ss) =>
    .ok { segments := s :: ss, pageClass, ne_nil := List.cons_ne_nil s ss
          isPart := MountSegment.isPart_of_readAll (fun _ => part_of_mem_pathParts) h }

/-- Indicates that a URL is at the path or below it. -/
def fits (m : Mount) (url : Url) : Bool :=
  m.segments.length ≤ url.segments.length &&
    (m.segments.zip url.segments).all fun (s, segment) => s.fits segment

/-- The values that placeholders take from the segments of a URL. -/
def captures : List MountSegment → List String → List NamedValue
  | .placeholder name :: ms, value :: segments => { name, value } :: captures ms segments
  | .literal _ :: ms, _ :: segments => captures ms segments
  | _, _ => []

/-- The segments for parameters, and the parameters that no placeholder took. -/
def fill : List MountSegment → Parameters → List String × Parameters
  | [], p => ([], p)
  | .literal text :: ms, p => (text :: (fill ms p).1, (fill ms p).2)
  | .placeholder name :: ms, p =>
    ((p.get? name).getD "" :: (fill ms (p.remove name)).1, (fill ms (p.remove name)).2)

/-- The URL at the mount of a page with this address and these parameters. -/
def url (m : Mount) (address : Option Address) (parameters : Parameters) : Url :=
  Url.withPage { segments := (fill m.segments parameters).1 } address
    (fill m.segments parameters).2 m.encoder

/-- What a URL at the mount says. -/
def link? (m : Mount) (r : Request) : Option PageLink :=
  if m.fits r.url then
    let p := m.encoder.readParameters r.url m.segments.length
    some { address := r.address?, pageClass := m.pageClass
           parameters := { p with named := p.named ++ captures m.segments r.url.segments } }
  else none

/-- Indicates a request for the home page that the mount sends on. -/
def takesHome (m : Mount) (c : Context) (url : Url) : Bool :=
  m.redirectsHome && url.isEmpty && m.pageClass = c.home

/-- Reads a request at the mount, or one for the home page. -/
def decode? (m : Mount) (c : Context) (r : Request) : Option Handler :=
  if m.takesHome c r.url then some (.redirect (m.url none {}))
  else (m.link? r).bind (·.handler? c)

/-- The mapper of a mount: a match scores by the number of segments. -/
def mapper (m : Mount) (c : Context) : Mapper :=
  .ofRequests (fun r => if m.fits r.url then m.segments.length else 0) (m.decode? c)
    (fun pages h =>
      (PageLink.ofHandler? pages (· = m.pageClass) false h).map fun link =>
        m.url link.address link.parameters)

end Mount

end StatefulPages
