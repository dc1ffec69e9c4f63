import StatefulPages.Keyed
import StatefulPages.Storage.SessionStore

/-!
# Stores in memory

A `MemoryStore` keeps the pages of each session in the order in which they were stored, and no more
than its limit: a new page takes the place of the oldest ones.
-/

namespace StatefulPages

/-- The pages of sessions, the oldest first. -/
structure MemoryStore where
  /-- How many pages of a session are kept. -/
  limit : Nat
  sessions : Keyed (List (PageId × List UInt8)) := {}
  deriving DecidableEq, Repr, Inhabited

namespace MemoryStore

/-- How many pages of a session are kept if nothing else is said. -/
def defaultLimit : Nat := 20

/-- An empty store, which keeps at least one page of a session. -/
def ofLimit (limit : Nat) : MemoryStore :=
  { limit := max limit 1 }

/-- The pages of a session. -/
def pages (s : MemoryStore) (session : SessionId) : List (PageId × List UInt8) :=
  (s.sessions.get? session).getD []

/-- The ids of the pages of a session. -/
def pageIds (s : MemoryStore) (session : SessionId) : List PageId :=
  (s.pages session).map (·.1)

/-- The number of sessions that pages were stored for. -/
def sessionCount (s : MemoryStore) : Nat :=
  s.sessions.size

/-- All pages but one. -/
def without (page : PageId) (pages : List (PageId × List UInt8)) : List (PageId × List UInt8) :=
  pages.filter (·.1 ≠ page)

/-- The last `n` pages. -/
def newest (n : Nat) (pages : List (PageId × List UInt8)) : List (PageId × List UInt8) :=
  pages.drop (pages.length - n)

/-- Reads a page. -/
def load (s : MemoryStore) (session : SessionId) (page : PageId) : Option (List UInt8) :=
  ((s.pages session).find? (·.1 = page)).map (·.2)

/-- Stores a page as the newest one, and forgets the oldest ones beyond the limit. -/
def store (s : MemoryStore) (session : SessionId) (page : PageId) (data : List UInt8) :
    MemoryStore :=
  if data = [] then s
  else
    let kept := newest (s.limit - 1) (without page (s.pages session))
    { s with sessions := s.sessions.set session (kept ++ [(page, data)]) }

/-- Forgets a page. -/
def remove (s : MemoryStore) (session : SessionId) (page : PageId) : MemoryStore :=
  match s.sessions.get? session with
  | some pages => { s with sessions := s.sessions.set session (without page pages) }
  | none => s

/-- Forgets a session. -/
def removeSession (s : MemoryStore) (session : SessionId) : MemoryStore :=
  { s with sessions := s.sessions.erase session }

/-- Forgets all sessions. -/
def clear (s : MemoryStore) : MemoryStore :=
  { s with sessions := {} }

instance : SessionStore MemoryStore where
  load s session page := (s.load session page, s)
  store := store
  remove := remove
  removeSession := removeSession
  destroy := clear

end MemoryStore

end StatefulPages
