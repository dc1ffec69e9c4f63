import StatefulPages.Storage.SessionStore

/-!
# What a store with a budget keeps

An `AgedStore` is what a store on disk amounts to: for each session the bytes of its pages, the
oldest page first. A new page makes the oldest ones give way until the session is within its budget
again, or none is left.

`SessionStore.answers` are the answers that any store gives to a sequence of calls.
-/

namespace StatefulPages

namespace SessionStore

/-- A call of a store. -/
inductive Call where
  | load (session : SessionId) (page : PageId)
  | store (session : SessionId) (page : PageId) (data : List UInt8)
  | remove (session : SessionId) (page : PageId)
  | removeSession (session : SessionId)
  deriving DecidableEq, Repr

/-- The session that a call is for. -/
def Call.session : Call → SessionId
  | load session _ => session
  | store session _ _ => session
  | remove session _ => session
  | removeSession session => session

variable {σ : Type} [SessionStore σ]

/-- Makes a call: the page that is read, if the call is to read one, and the store afterwards. -/
def call (s : σ) : Call → Option (Option (List UInt8)) × σ
  | .load session page => ((some (SessionStore.load s session page).1,
      (SessionStore.load s session page).2))
  | .store session page data => (none, SessionStore.store s session page data)
  | .remove session page => (none, SessionStore.remove s session page)
  | .removeSession session => (none, SessionStore.removeSession s session)

/-- The store after several calls. -/
def run (s : σ) : List Call → σ
  | [] => s
  | c :: calls => run (call s c).2 calls

theorem run_append (s : σ) (calls later : List Call) :
    run s (calls ++ later) = run (run s calls) later := by
  induction calls generalizing s with
  | nil => rfl
  | cons c calls ih => exact ih (call s c).2

/-- The pages that are read by several calls, in their order. -/
def answers (s : σ) : List Call → List (Option (List UInt8))
  | [] => []
  | c :: calls => (call s c).1.toList ++ answers (call s c).2 calls

end SessionStore

/-- The id of a page, and its bytes. -/
abbrev StoredPage := PageId × List UInt8

/-- The pages of sessions, the oldest first. -/
structure AgedStore where
  /-- How many bytes the pages of a session may have. -/
  budget : Nat
  pages : SessionId → List StoredPage := fun _ => []

namespace AgedStore

/-- The number of bytes of some pages. -/
def byteCount : List StoredPage → Nat
  | [] => 0
  | p :: ps => p.2.length + byteCount ps

/-- Drops the oldest pages until `size` more bytes are within the budget, or no page is left. -/
def dropOldest (budget size : Nat) : List StoredPage → List StoredPage
  | [] => []
  | p :: ps =>
    if byteCount (p :: ps) + size ≤ budget then p :: ps else dropOldest budget size ps

/-- The pages without the one with this id. -/
def without (page : PageId) (ps : List StoredPage) : List StoredPage :=
  ps.filter (·.1 ≠ page)

/-- The pages with a new one. -/
def withNew (budget : Nat) (page : PageId) (data : List UInt8) (ps : List StoredPage) :
    List StoredPage :=
  dropOldest budget data.length (without page ps) ++ [(page, data)]

/-- Changes the pages of a session. -/
def modify (s : AgedStore) (session : SessionId) (change : List StoredPage → List StoredPage) :
    AgedStore :=
  { s with pages := fun t => if t = session then change (s.pages t) else s.pages t }

/-- Reads a page. -/
def load (s : AgedStore) (session : SessionId) (page : PageId) : Option (List UInt8) :=
  ((s.pages session).find? (·.1 = page)).map (·.2)

/-- Stores a page, unless it has no bytes. -/
def store (s : AgedStore) (session : SessionId) (page : PageId) (data : List UInt8) : AgedStore :=
  if data = [] then s else s.modify session (withNew s.budget page data)

/-- Forgets a page. -/
def remove (s : AgedStore) (session : SessionId) (page : PageId) : AgedStore :=
  s.modify session (without page)

/-- Forgets a session. -/
def removeSession (s : AgedStore) (session : SessionId) : AgedStore :=
  s.modify session fun _ => []

instance : SessionStore AgedStore where
  load s session page := (s.load session page, s)
  store := store
  remove := remove
  removeSession := removeSession
  destroy s := s

theorem budget_call (s : AgedStore) (c : SessionStore.Call) :
    (SessionStore.call s c).2.budget = s.budget := by
  cases c with
  | load session page => rfl
  | store session page data =>
    show (s.store session page data).budget = s.budget
    rw [store]
    split <;> rfl
  | remove session page => rfl
  | removeSession session => rfl

end AgedStore

end StatefulPages
