import StatefulPages.PageId
import StatefulPages.Storage.StoreFolder

/-!
# Stores for the pages of sessions

A store keeps the bytes of pages by session and page id. It may lose pages, and never says why: what
cannot be stored or read is not there.
-/

namespace StatefulPages

/-- Keeps the bytes of pages in a state of type `σ`. -/
class SessionStore (σ : Type) where
  /-- Reads a page. -/
  load : σ → SessionId → PageId → Option (List UInt8) × σ
  /-- Stores a page in place of one with its id. A page without bytes is not stored. -/
  store : σ → SessionId → PageId → List UInt8 → σ
  /-- Forgets a page. -/
  remove : σ → SessionId → PageId → σ
  /-- Forgets a session and all its pages. -/
  removeSession : σ → SessionId → σ
  /-- Ends the use of the store. -/
  destroy : σ → σ
  /-- Indicates that the pages are kept on other machines, too. -/
  isReplicated : Bool := false

end StatefulPages
