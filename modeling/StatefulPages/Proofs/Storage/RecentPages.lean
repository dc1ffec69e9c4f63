import Mathlib.Data.List.Dedup
import Mathlib.Data.List.DropRight
import StatefulPages.Storage.MemoryStore

/-!
# The most recent pages

What a store in memory has of a session is a matter of what was stored for it, and in which order: of each
page the latest bytes, and of all pages those that were stored last, no more than the limit.

* `MemoryStore.latest`: the writes that no other follows for the same page;
* `MemoryStore.Recent`: a session has the last of these;
* `MemoryStore.Recent.store`, `MemoryStore.recent_removeSession`: what a call makes of it;
* `MemoryStore.Recent.load`: which bytes there are.
-/

namespace StatefulPages

namespace MemoryStore

/-! ## All pages but one -/

theorem without_cons_self (e : PageId × List UInt8) (pages : List (PageId × List UInt8)) :
    without e.1 (e :: pages) = without e.1 pages :=
  List.filter_cons_of_neg (by simp)

theorem without_cons_of_ne {id : PageId} {e : PageId × List UInt8} (h : e.1 ≠ id)
    (pages : List (PageId × List UInt8)) : without id (e :: pages) = e :: without id pages :=
  List.filter_cons_of_pos (by simpa using h)

theorem mem_without {id : PageId} {pages : List (PageId × List UInt8)} {e : PageId × List UInt8} :
    e ∈ without id pages ↔ e ∈ pages ∧ e.1 ≠ id := by
  simp [without]

theorem find?_without_self (id : PageId) (pages : List (PageId × List UInt8)) :
    (without id pages).find? (·.1 = id) = none := by
  rw [List.find?_eq_none]
  intro e he
  simpa using (mem_without.1 he).2

theorem find?_without_of_ne {id other : PageId} (h : other ≠ id) (pages : List (PageId × List UInt8)) :
    (without id pages).find? (·.1 = other) = pages.find? (·.1 = other) := by
  induction pages with
  | nil => rfl
  | cons e pages ih =>
    by_cases he : e.1 = id
    · rw [← he, without_cons_self, he, ih, List.find?_cons_of_neg (by simpa [he] using h.symm)]
    · rw [without_cons_of_ne he, List.find?_cons, List.find?_cons, ih]

/-- No more than one page is lost. -/
theorem length_le_without {pages : List (PageId × List UInt8)} (hpages : (pages.map Prod.fst).Nodup)
    (id : PageId) : pages.length ≤ (without id pages).length + 1 := by
  induction pages with
  | nil => exact Nat.zero_le _
  | cons e pages ih =>
    rw [List.map_cons, List.nodup_cons] at hpages
    by_cases he : e.1 = id
    · have hnone : without id pages = pages := by
        rw [without, List.filter_eq_self]
        intro other hother
        have hne : other.1 ≠ id := fun h => hpages.1 (he ▸ h ▸ List.mem_map_of_mem hother)
        simpa using hne
      rw [← he, without_cons_self, he, hnone]
      exact Nat.le_refl _
    · rw [without_cons_of_ne he]
      exact Nat.succ_le_succ (ih hpages.2)

/-! ## Writes -/

variable {writes later : List (PageId × List UInt8)} {e : PageId × List UInt8}

/-- The writes that no other follows for the same page. -/
def latest (writes : List (PageId × List UInt8)) : List (PageId × List UInt8) :=
  writes.pwFilter fun a b => a.1 ≠ b.1

theorem latest_cons (e : PageId × List UInt8) (writes : List (PageId × List UInt8)) :
    latest (e :: writes) =
      if ∀ later ∈ latest writes, e.1 ≠ later.1 then e :: latest writes else latest writes :=
  rfl

/-- A write takes the place of those for the same page. -/
theorem latest_concat (writes : List (PageId × List UInt8)) (e : PageId × List UInt8) :
    latest (writes ++ [e]) = without e.1 (latest writes) ++ [e] := by
  induction writes with
  | nil => rfl
  | cons first writes ih =>
    rw [List.cons_append, latest_cons, latest_cons, ih]
    have hsame : (∀ later ∈ without e.1 (latest writes) ++ [e], first.1 ≠ later.1) ↔
        (∀ later ∈ latest writes, first.1 ≠ later.1) ∧ first.1 ≠ e.1 := by
      rw [List.forall_mem_append, List.forall_mem_singleton]
      refine and_congr_left fun hne => ⟨fun h later hlater => ?_, fun h later hlater => ?_⟩
      · by_cases heq : later.1 = e.1
        · rwa [heq]
        · exact h later (mem_without.2 ⟨hlater, heq⟩)
      · exact h later (mem_without.1 hlater).1
    by_cases hlater : ∀ later ∈ latest writes, first.1 ≠ later.1
    · by_cases hne : first.1 = e.1
      · rw [if_neg (fun h => (hsame.1 h).2 hne), if_pos hlater, ← hne, without_cons_self]
      · rw [if_pos (hsame.2 ⟨hlater, hne⟩), if_pos hlater, without_cons_of_ne hne, List.cons_append]
    · rw [if_neg (fun h => hlater (hsame.1 h).1), if_neg hlater]

theorem map_fst_latest (writes : List (PageId × List UInt8)) :
    (latest writes).map Prod.fst = (writes.map Prod.fst).dedup := by
  rw [List.dedup, List.pwFilter_map]
  rfl

theorem nodup_latest (writes : List (PageId × List UInt8)) :
    ((latest writes).map Prod.fst).Nodup := by
  rw [map_fst_latest]
  exact List.nodup_dedup _

theorem mem_of_mem_latest (h : e ∈ latest writes) : e ∈ writes :=
  (List.pwFilter_sublist writes).subset h

/-- The latest write for a page is the first that is found from the end. -/
theorem find?_latest (writes : List (PageId × List UInt8)) (id : PageId) :
    (latest writes).find? (·.1 = id) = writes.reverse.find? (·.1 = id) := by
  induction writes using List.reverseRecOn with
  | nil => rfl
  | append_singleton writes e ih =>
    rw [latest_concat, List.find?_append, List.reverse_concat]
    by_cases he : e.1 = id
    · rw [he, find?_without_self, Option.none_or, List.find?_cons_of_pos (by simpa using he),
        List.find?_cons_of_pos (by simpa using he)]
    · rw [find?_without_of_ne (Ne.symm he), ih, List.find?_cons_of_neg (by simpa using he),
        List.find?_cons_of_neg (by simpa using he), List.find?_nil, Option.or_none]

/-! ## The limit -/

theorem newest_append_of_le {n : Nat} {first second : List (PageId × List UInt8)}
    (h : n ≤ second.length) : newest n (first ++ second) = newest n second := by
  rw [newest, newest, List.length_append, Nat.add_sub_assoc h, List.drop_length_add_append]

theorem newest_of_length_le {n : Nat} {pages : List (PageId × List UInt8)} (h : pages.length ≤ n) :
    newest n pages = pages := by
  rw [newest, Nat.sub_eq_zero_of_le h, List.drop_zero]

theorem newest_concat {n : Nat} (hn : 0 < n) (pages : List (PageId × List UInt8))
    (e : PageId × List UInt8) : newest n (pages ++ [e]) = newest (n - 1) pages ++ [e] := by
  obtain ⟨n, rfl⟩ := Nat.exists_eq_succ_of_ne_zero (Nat.ne_of_gt hn)
  exact List.rtake_concat_succ pages n e

/-- When a page is stored, it does not matter whether those beyond the limit have been forgotten. -/
theorem newest_without_newest {pages : List (PageId × List UInt8)}
    (hpages : (pages.map Prod.fst).Nodup) (n : Nat) (id : PageId) :
    newest (n - 1) (without id (newest n pages)) = newest (n - 1) (without id pages) := by
  rcases Nat.le_total pages.length n with hle | hle
  · rw [newest_of_length_le hle]
  · have hnewest : ((newest n pages).map Prod.fst).Nodup :=
      ((List.drop_sublist _ pages).map Prod.fst).nodup hpages
    have hlength : (newest n pages).length = n := by
      rw [newest, List.length_drop]
      omega
    have hlost := length_le_without hnewest id
    rw [hlength] at hlost
    have hsplit : without id pages =
        without id (pages.take (pages.length - n)) ++ without id (newest n pages) := by
      rw [without, without, without, ← List.filter_append, newest, List.take_append_drop]
    rw [hsplit, newest_append_of_le (by omega)]

theorem newest_latest_concat {n : Nat} (hn : 0 < n) (writes : List (PageId × List UInt8))
    (e : PageId × List UInt8) : newest n (latest (writes ++ [e])) =
      newest (n - 1) (without e.1 (newest n (latest writes))) ++ [e] := by
  rw [latest_concat, newest_concat hn, newest_without_newest (nodup_latest writes)]

/-- A page that is not written to is forgotten or stays. -/
theorem mem_newest_latest_of_append {n : Nat} (hn : 0 < n)
    (h : e ∈ newest n (latest (writes ++ later))) (hlater : ∀ write ∈ later, write.1 ≠ e.1) :
    e ∈ newest n (latest writes) := by
  induction later using List.reverseRecOn with
  | nil =>
    rwa [List.append_nil] at h
  | append_singleton later write ih =>
    rw [List.forall_mem_append, List.forall_mem_singleton] at hlater
    rw [← List.append_assoc, newest_latest_concat hn, List.mem_append, List.mem_singleton] at h
    rcases h with h | rfl
    · exact ih (mem_without.1 (List.mem_of_mem_drop h)).1 hlater.1
    · exact absurd rfl hlater.2

theorem map_fst_newest_latest (n : Nat) (writes : List (PageId × List UInt8)) :
    (newest n (latest writes)).map Prod.fst = (writes.map Prod.fst).dedup.rtake n := by
  rw [← map_fst_latest, newest, List.map_drop, List.rtake, List.length_map]

/-! ## The pages of a session -/

/-- A session has been stored these pages, and has the latest of them. -/
def Recent (s : MemoryStore) (session : SessionId) (writes : List (PageId × List UInt8)) : Prop :=
  s.pages session = newest s.limit (latest writes)

variable {s t : MemoryStore} {session : SessionId} {id : PageId}

theorem recent_ofLimit (limit : Nat) (session : SessionId) : (ofLimit limit).Recent session [] := by
  rw [Recent, newest, latest, List.pwFilter_nil, List.drop_nil]
  rfl

theorem limit_store (s : MemoryStore) (session : SessionId) (id : PageId) (data : List UInt8) :
    (s.store session id data).limit = s.limit := by
  rw [store]
  split <;> rfl

theorem Recent.store (h : s.Recent session writes) (hlimit : 0 < s.limit) (id : PageId)
    {data : List UInt8} (hdata : data ≠ []) :
    (s.store session id data).Recent session (writes ++ [(id, data)]) := by
  rw [Recent, limit_store, newest_latest_concat hlimit, ← h, MemoryStore.store, if_neg hdata, pages,
    Keyed.get?_set_self]
  rfl

theorem recent_removeSession (s : MemoryStore) (session : SessionId) :
    (s.removeSession session).Recent session [] := by
  rw [Recent, pages, removeSession, Keyed.get?_erase_self, newest, latest, List.pwFilter_nil,
    List.drop_nil]
  rfl

/-- The pages that are there are those of the last writes, with their latest bytes. -/
theorem Recent.load (h : s.Recent session writes) (id : PageId) : s.load session id =
    if id ∈ (writes.map Prod.fst).dedup.rtake s.limit then
      (writes.reverse.find? (·.1 = id)).map Prod.snd
    else none := by
  have hids := map_fst_newest_latest s.limit writes
  rw [MemoryStore.load, h, ← hids]
  split
  · rename_i hmem
    obtain ⟨e, he, rfl⟩ := List.mem_map.1 hmem
    have hwrites := nodup_latest writes
    have hnewest : ((newest s.limit (latest writes)).map Prod.fst).Nodup := by
      rw [hids, ← map_fst_latest]
      exact (List.drop_sublist _ _).nodup hwrites
    rw [Keyed.find?_of_mem hnewest he, ← find?_latest,
      Keyed.find?_of_mem hwrites (List.mem_of_mem_drop he)]
  · rename_i hmem
    rw [Option.map_eq_none_iff, List.find?_eq_none]
    intro e he hid
    exact hmem (List.mem_map.2 ⟨e, he, by simpa using hid⟩)

/-- A page that is not written to has its bytes as long as it is there. -/
theorem Recent.load_of_append (h : s.Recent session writes) (h' : t.Recent session (writes ++ later))
    (hlimit : t.limit = s.limit) (hpos : 0 < s.limit) (hlater : ∀ write ∈ later, write.1 ≠ id) :
    t.load session id =
      if id ∈ ((writes ++ later).map Prod.fst).dedup.rtake t.limit then s.load session id else none := by
  rw [h'.load, h.load, hlimit]
  refine if_ctx_congr Iff.rfl (fun hmem => ?_) fun _ => rfl
  have hstill : id ∈ (writes.map Prod.fst).dedup.rtake s.limit := by
    rw [← map_fst_newest_latest] at hmem ⊢
    obtain ⟨e, he, rfl⟩ := List.mem_map.1 hmem
    exact List.mem_map_of_mem (mem_newest_latest_of_append hpos he hlater)
  have hnone : later.reverse.find? (·.1 = id) = none := by
    rw [List.find?_eq_none]
    intro write hwrite
    simpa using hlater write (List.mem_reverse.1 hwrite)
  rw [if_pos hstill, List.reverse_append, List.find?_append, hnone, Option.none_or]

end MemoryStore

end StatefulPages
