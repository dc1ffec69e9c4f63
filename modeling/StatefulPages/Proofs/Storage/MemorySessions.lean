import Mathlib.Data.Finset.Card
import StatefulPages.Proofs.Storage.StoreHistory

/-!
# Sessions in memory

What a store in memory has of a session can be read off the calls that were made: since the session was
removed last, some pages were stored for it, and it has those that were stored last.

* `SessionStore.writesSince`: what was stored for a session since it was removed last;
* `MemoryStore.get?_run_of_other`: what is done for other sessions leaves a session alone;
* `MemoryStore.Recent.call`, `MemoryStore.recent_run`: a session has the latest of its writes, no more
  than the limit;
* `MemoryStore.run_keeps_recent`: the ids and the bytes of the pages that there are.
-/

namespace StatefulPages

namespace SessionStore

/-- The page that a call stores for a session. A page without bytes is not stored. -/
def Call.written? (id : SessionId) : Call → Option StoredPage
  | .store session page data => if session = id ∧ data ≠ [] then some (page, data) else none
  | .load .. | .remove .. | .removeSession .. => none

/-- What was stored for a session since it was removed last. -/
def writesSince (calls : List Call) (id : SessionId) : List StoredPage :=
  (calls.rtakeWhile (· ≠ .removeSession id)).filterMap (·.written? id)

/-- What a call makes of the writes for a session. -/
theorem writesSince_concat (calls : List Call) (c : Call) (id : SessionId) :
    writesSince (calls ++ [c]) id =
      if c = .removeSession id then [] else writesSince calls id ++ (c.written? id).toList := by
  rw [writesSince, List.rtakeWhile_concat]
  by_cases hc : c = .removeSession id
  · rw [if_pos hc, if_neg (by simpa using hc), List.filterMap_nil]
  · rw [if_neg hc, if_pos (by simpa using hc), List.filterMap_append, ← writesSince]
    cases hwritten : c.written? id <;> simp [hwritten]

end SessionStore

namespace MemoryStore

open SessionStore (Call call run writesSince)

variable {s : MemoryStore} {c : Call} {calls others : List Call} {id : SessionId}

/-! ## Other sessions -/

theorem get?_call_of_other (s : MemoryStore) (h : c.session ≠ id) :
    (call s c).2.sessions.get? id = s.sessions.get? id := by
  cases c with
  | load session page => rfl
  | store session page data =>
    show (s.store session page data).sessions.get? id = _
    rw [store]
    split
    · rfl
    · exact Keyed.get?_set_of_ne _ _ (Ne.symm h)
  | remove session page =>
    show (s.remove session page).sessions.get? id = _
    rw [remove]
    split
    · exact Keyed.get?_set_of_ne _ _ (Ne.symm h)
    · rfl
  | removeSession session => exact Keyed.get?_erase_of_ne _ (Ne.symm h)

/-- What is done for other sessions leaves a session alone. -/
theorem get?_run_of_other (s : MemoryStore) (h : ∀ c ∈ others, c.session ≠ id) :
    (run s others).sessions.get? id = s.sessions.get? id := by
  induction others generalizing s with
  | nil => rfl
  | cons c others ih =>
    rw [List.forall_mem_cons] at h
    rw [run, ih _ h.2, s.get?_call_of_other h.1]

/-! ## The pages of a session -/

/-- What a call makes of the pages of a session, if it removes none of them. -/
theorem Recent.call {writes : List StoredPage} (h : s.Recent id writes) (hlimit : 0 < s.limit)
    (hremove : ∀ session page, c ≠ .remove session page) : (call s c).2.Recent id
      (if c = .removeSession id then [] else writes ++ (c.written? id).toList) := by
  by_cases hid : c.session = id
  · cases c with
    | load session page =>
      rw [if_neg nofun, Call.written?, Option.toList_none, List.append_nil]
      exact h
    | store session page data =>
      obtain rfl : session = id := hid
      rw [if_neg nofun, Call.written?, SessionStore.call]
      by_cases hdata : data = []
      · have hsame : SessionStore.store s session page data = s := if_pos hdata
        rw [if_neg fun h => h.2 hdata, Option.toList_none, List.append_nil, hsame]
        exact h
      · rw [if_pos ⟨rfl, hdata⟩]
        exact h.store hlimit page hdata
    | remove session page => exact absurd rfl (hremove session page)
    | removeSession session =>
      obtain rfl : session = id := hid
      rw [if_pos rfl]
      exact s.recent_removeSession session
  -- A call for another session neither writes for this one nor touches its pages.
  · have hwritten : c.written? id = none := by
      cases c with
      | store session page data => exact if_neg fun h => hid h.1
      | load | remove | removeSession => rfl
    rw [if_neg fun h => hid (congrArg Call.session h), hwritten, Option.toList_none, List.append_nil,
      Recent, limit_call, pages, s.get?_call_of_other hid]
    exact h

theorem limit_run (s : MemoryStore) (calls : List Call) : (run s calls).limit = s.limit := by
  induction calls generalizing s with
  | nil => rfl
  | cons c calls ih => exact (ih _).trans (s.limit_call c)

/-- Until a page is removed, a session has the latest of its writes. -/
theorem recent_run (limit : Nat) (hremove : ∀ session page, Call.remove session page ∉ calls)
    (id : SessionId) : (run (ofLimit limit) calls).Recent id (writesSince calls id) := by
  induction calls using List.reverseRecOn with
  | nil => exact recent_ofLimit limit id
  | append_singleton calls c ih =>
    have hbefore := ih fun session page hmem => hremove session page (List.mem_append_left _ hmem)
    have hlimit : 0 < (run (ofLimit limit) calls).limit := by
      rw [limit_run]
      exact Nat.le_max_right limit 1
    rw [SessionStore.run_append, SessionStore.writesSince_concat]
    refine hbefore.call hlimit fun session page hc => hremove session page ?_
    rw [hc]
    exact List.mem_append_right _ (List.mem_singleton_self _)

/-- Until a page is removed, a session has the pages that were stored last since the session was removed:
as many different ones as there were, but no more than the limit, in the order of their latest writes and
with the bytes of these. (`List.dedup` keeps the last one of equal ids, and `List.rtake` the last ids.) No
other page is there, and what is done for other sessions changes nothing. -/
theorem run_keeps_recent (limit : Nat) (calls : List Call)
    (hremove : ∀ session page, Call.remove session page ∉ calls) (id : SessionId) :
    let s := run (ofLimit limit) calls
    let writes := writesSince calls id
    s.pageIds id = (writes.map Prod.fst).dedup.rtake (max limit 1) ∧
      (s.pageIds id).length = min (max limit 1) (writes.map Prod.fst).toFinset.card ∧
      (∀ page, (SessionStore.load s id page).1 =
        if page ∈ s.pageIds id then (writes.reverse.find? (·.1 = page)).map Prod.snd else none) ∧
      ∀ others : List Call, (∀ c ∈ others, c.session ≠ id) →
        (run s others).sessions.get? id = s.sessions.get? id := by
  intro s writes
  have hrecent : s.Recent id writes := recent_run limit hremove id
  have hlimit : s.limit = max limit 1 := limit_run _ calls
  have hids : s.pageIds id = (writes.map Prod.fst).dedup.rtake (max limit 1) := by
    rw [pageIds, hrecent, hlimit]
    exact map_fst_newest_latest _ writes
  refine ⟨hids, ?_, fun page => ?_, fun others => s.get?_run_of_other⟩
  · rw [hids, List.card_toFinset, List.rtake, List.length_drop]
    omega
  · rw [hids, ← hlimit]
    exact hrecent.load page

/-- A page is stored again after it made way, and another one before its session is removed. -/
theorem run_keeps_recent_of_two_sessions :
    let calls : List Call := [.store "a" 7 [7], .removeSession "a", .store "a" 1 [1], .store "a" 2 [2],
      .store "b" 1 [9], .store "a" 3 [3], .load "a" 2, .store "a" 1 [4], .store "a" 2 [],
      .store "a" 3 [5]]
    let s := run (ofLimit 2) calls
    s.pageIds "a" = [1, 3] ∧ (SessionStore.load s "a" 3).1 = some [5] ∧
      (SessionStore.load s "a" 2).1 = none ∧
      (run s [.store "b" 2 [8], .removeSession "b"]).sessions.get? "a" = s.sessions.get? "a" := by
  intro calls s
  obtain ⟨hids, -, hload, hothers⟩ := run_keeps_recent 2 calls (by simp [calls]) "a"
  refine ⟨hids.trans (by decide), ?_, ?_, hothers _ (by decide)⟩
  · rw [hload, hids]
    decide
  · rw [hload, hids]
    decide

end MemoryStore

end StatefulPages
