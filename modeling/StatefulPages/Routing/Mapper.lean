import StatefulPages.Handler
import StatefulPages.Request

/-!
# Mappers

A mapper reads requests as handlers and writes handlers as URLs. It also scores a request by the
form of its URL. Of several mappers the one with the highest score reads a request, if it can, and
of those with equal scores the one that was added last; a handler is written by the mapper added
last that can write it.

Reading may take a response out of the `Buffer`, so it returns the buffer as it is afterwards.
-/

namespace StatefulPages

/-! ## Buffered responses -/

/-- The responses that wait for a request, by the text of its URL. -/
abbrev Buffer := List (String × BufferedResponse)

namespace Buffer

/-- The response that waits for a URL. -/
def response? (b : Buffer) (url : Url) : Option BufferedResponse :=
  b.lookup url.text

/-- Takes away the response for a URL. -/
def drop (b : Buffer) (url : Url) : Buffer :=
  b.filter (·.1 ≠ url.text)

/-- Keeps a response for a URL, in place of one that waited for it. -/
def store (b : Buffer) (url : Url) (response : BufferedResponse) : Buffer :=
  (url.text, response) :: b.drop url

end Buffer

/-! ## Mappers -/

/-- A way between requests and handlers. The scores of a site's own mappers are natural numbers; those
of others may be of any ordered type. -/
structure Mapper (σ : Type := Nat) where
  /-- How well the form of a request's URL suits the mapper. -/
  score : Buffer → Request → σ
  /-- Reads a request. -/
  decode : Buffer → Request → Option Handler × Buffer
  /-- Writes a handler. -/
  encode : Pages → Handler → Option Url

namespace Mapper

/-- The score of a mapper that alone is meant for a URL. -/
def maxScore : Nat := 0x7FFFFFFF

/-- A mapper that leaves the buffer alone. -/
def ofRequests (score : Request → Nat) (decode : Request → Option Handler)
    (encode : Pages → Handler → Option Url) : Mapper where
  score _ r := score r
  decode b r := (decode r, b)
  encode := encode

/-- The mapper that replays buffered responses, each of them once. -/
def buffered : Mapper where
  score b r := if (b.response? r.url).isSome then maxScore else 0
  decode b r :=
    match b.response? r.url with
    | some response => (some (.buffered r.url response), b.drop r.url)
    | none => (none, b)
  encode _ _ := none

/-! ## Several mappers -/

section Several

variable {σ : Type}

/-- Adds a mapper to several, in front of those there are. -/
def add (ms : List (Mapper σ)) (m : Mapper σ) : List (Mapper σ) :=
  m :: ms

/-- Orders mappers by descending score; those with equal scores keep their order. -/
def ranked [LE σ] [DecidableLE σ] (ms : List (Mapper σ)) (b : Buffer) (r : Request) :
    List (Mapper σ) :=
  ((ms.map fun m => (m.score b r, m)).mergeSort fun x y => y.1 ≤ x.1).map (·.2)

/-- Reads a request with the first mapper that can. -/
def decodeFirst : List (Mapper σ) → Buffer → Request → Option Handler × Buffer
  | [], b, _ => (none, b)
  | m :: ms, b, r =>
    match m.decode b r with
    | (some h, b) => (some h, b)
    | (none, b) => decodeFirst ms b r

/-- Several mappers as one, the one added last at the head of the list. Its score is the highest one
of them, and 0 without mappers. -/
def compound [LE σ] [DecidableLE σ] [Max σ] [OfNat σ 0] (ms : List (Mapper σ)) : Mapper σ where
  score b r := (ms.map (·.score b r)).max?.getD 0
  decode b r := decodeFirst (ranked ms b r) b r
  encode pages h := ms.findSome? (·.encode pages h)

end Several

end Mapper

end StatefulPages
