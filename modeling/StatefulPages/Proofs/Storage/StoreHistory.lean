import Mathlib.Data.List.Infix
import StatefulPages.Proofs.Storage.DiskRefinement
import StatefulPages.Proofs.Storage.RecentPages

/-!
# What any store has of its history

As long as nothing has to give way, a store is its history: a page has the bytes that were stored for
it last, unless it or its session was removed since (`SessionStore.lastStored`). A `StoreHistory`
answers in this way.

* `find?_held`: the pages that were stored and not removed are those that the history has;
* `AgedStore.pages_call`, `MemoryStore.pages_call`: within its limits a store keeps these pages;
* `answers_of_pages_call`: what keeps these pages answers as the history does;
* `answers_eq_history`: so a store on disk and one in memory give the same answers, while the pages
  of each session are within the limits of both.
-/

namespace StatefulPages

namespace SessionStore

/-! ## Histories -/

/-- What a call says about a page: nothing, or what there is of it from then on. -/
def Call.says? (id : SessionId) (page : PageId) : Call → Option (Option (List UInt8))
  | .load .. => none
  | .store session p data =>
    if session = id ∧ p = page ∧ data ≠ [] then some (some data) else none
  | .remove session p => if session = id ∧ p = page then some none else none
  | .removeSession session => if session = id then some none else none

/-- The bytes that were stored last for a page, unless it or its session was removed since. -/
def lastStored (calls : List Call) (id : SessionId) (page : PageId) : Option (List UInt8) :=
  (calls.reverse.findSome? (·.says? id page)).join

/-- What a call does to the pages of a session that are stored and not removed. -/
def Call.change (id : SessionId) : Call → List StoredPage → List StoredPage
  | .load .., ps => ps
  | .store session page data, ps =>
    if session = id ∧ data ≠ [] then AgedStore.without page ps ++ [(page, data)] else ps
  | .remove session page, ps => if session = id then AgedStore.without page ps else ps
  | .removeSession session, ps => if session = id then [] else ps

/-- The pages of a session that were stored and not removed since, the oldest first. -/
def held (calls : List Call) (id : SessionId) : List StoredPage :=
  calls.foldl (fun ps c => c.change id ps) []

/-- Indicates calls after each of which no session has more than `limit` pages that are stored and not
removed, or more than `budget` bytes in them. -/
def Within (budget limit : Nat) (calls : List Call) : Prop :=
  ∀ before, before <+: calls → ∀ id,
    (held before id).length ≤ limit ∧ AgedStore.byteCount (held before id) ≤ budget

variable {calls before : List Call} {id : SessionId} {budget limit : Nat}

theorem held_concat (calls : List Call) (c : Call) (id : SessionId) :
    held (calls ++ [c]) id = c.change id (held calls id) :=
  List.foldl_concat ..

theorem lastStored_concat (calls : List Call) (c : Call) (id : SessionId) (page : PageId) :
    lastStored (calls ++ [c]) id page = (c.says? id page).getD (lastStored calls id page) := by
  rw [lastStored, List.reverse_concat, List.findSome?_cons]
  cases c.says? id page <;> rfl

theorem find?_without (p page : PageId) (ps : List StoredPage) :
    ((AgedStore.without p ps).find? (·.1 = page)).map (·.2) =
      if p = page then none else (ps.find? (·.1 = page)).map (·.2) := by
  split
  · rename_i heq
    rw [← heq]
    exact congrArg _ (MemoryStore.find?_without_self p ps)
  · rename_i hne
    exact congrArg _ (MemoryStore.find?_without_of_ne (Ne.symm hne) ps)

/-- What a call says about a page is what it does to it. -/
theorem find?_change (c : Call) (ps : List StoredPage) (id : SessionId) (page : PageId) :
    ((c.change id ps).find? (·.1 = page)).map (·.2) =
      (c.says? id page).getD ((ps.find? (·.1 = page)).map (·.2)) := by
  cases c with
  | load session p => rfl
  | store session p data =>
    have hconcat : ((AgedStore.without p ps ++ [(p, data)]).find? (·.1 = page)).map (·.2) =
        if p = page then some data else (ps.find? (·.1 = page)).map (·.2) := by
      rw [List.find?_append, Option.map_or, find?_without]
      by_cases hp : p = page <;> simp [hp]
    grind [Call.change, Call.says?]
  | remove session p =>
    have hwithout := find?_without p page ps
    grind [Call.change, Call.says?]
  | removeSession session => grind [Call.change, Call.says?]

/-- The pages that are held have the bytes that were stored for them last. -/
theorem find?_held (calls : List Call) (id : SessionId) (page : PageId) :
    ((held calls id).find? (·.1 = page)).map (·.2) = lastStored calls id page := by
  induction calls using List.reverseRecOn with
  | nil => rfl
  | append_singleton calls c ih => rw [held_concat, lastStored_concat, find?_change, ih]

/-- A session that no call is for has no pages. -/
theorem held_of_notMem (h : ∀ c ∈ calls, c.session ≠ id) : held calls id = [] := by
  induction calls using List.reverseRecOn with
  | nil => rfl
  | append_singleton calls c ih =>
    rw [List.forall_mem_append, List.forall_mem_singleton] at h
    rw [held_concat, ih h.1]
    cases c with
    | load session page => rfl
    | store session page data => exact if_neg fun heq => h.2 heq.1
    | remove session page => exact if_neg h.2
    | removeSession session => exact if_neg h.2

instance (budget limit : Nat) (calls : List Call) : Decidable (Within budget limit calls) :=
  decidable_of_iff (∀ before ∈ calls.inits, ∀ id ∈ calls.map Call.session,
      (held before id).length ≤ limit ∧ AgedStore.byteCount (held before id) ≤ budget) <| by
    constructor
    · intro h before hbefore id
      by_cases hid : id ∈ calls.map Call.session
      · exact h before ((List.mem_inits ..).2 hbefore) id hid
      · rw [held_of_notMem fun c hc heq => hid (List.mem_map.2 ⟨c, hbefore.subset hc, heq⟩)]
        exact ⟨Nat.zero_le _, Nat.zero_le _⟩
    · intro h before hbefore id _
      exact h before ((List.mem_inits ..).1 hbefore) id

/-! ## Stores that have the pages of their history -/

/-- A store that has all calls, and reads from them. -/
structure StoreHistory where
  calls : List Call := []

instance : SessionStore StoreHistory where
  load h session page := (lastStored h.calls session page, ⟨h.calls ++ [.load session page]⟩)
  store h session page data := ⟨h.calls ++ [.store session page data]⟩
  remove h session page := ⟨h.calls ++ [.remove session page]⟩
  removeSession h session := ⟨h.calls ++ [.removeSession session]⟩
  destroy h := h

/-- A store that keeps the pages of each session, while they fit, answers as its history does. -/
theorem answers_of_pages_call {σ : Type} [SessionStore σ] {s : σ}
    (pages : σ → SessionId → List StoredPage) (kept : σ → Prop) (fits : List StoredPage → Prop)
    (hload : ∀ s id page, (SessionStore.load s id page).1 =
      ((pages s id).find? (·.1 = page)).map (·.2))
    (hcall : ∀ s c, kept s → (∀ id, fits (c.change id (pages s id))) →
      kept (call s c).2 ∧ ∀ id, pages (call s c).2 id = c.change id (pages s id))
    (hkept : kept s) (hpages : ∀ id, pages s id = held before id)
    (hfits : ∀ behind, behind <+: calls → ∀ id, fits (held (before ++ behind) id)) :
    answers s calls = answers (⟨before⟩ : StoreHistory) calls := by
  induction calls generalizing s before with
  | nil => rfl
  | cons c calls ih =>
    have hanswer : (call s c).1 = (call (⟨before⟩ : StoreHistory) c).1 := by
      cases c with
      | load id page =>
        show some (SessionStore.load s id page).1 = some (lastStored before id page)
        rw [hload, hpages, find?_held]
      | store session page data => rfl
      | remove session page => rfl
      | removeSession session => rfl
    have hnext : (call (⟨before⟩ : StoreHistory) c).2 = ⟨before ++ [c]⟩ := by
      cases c <;> rfl
    have hfit : ∀ id, fits (c.change id (pages s id)) := by
      intro id
      rw [hpages, ← held_concat]
      exact hfits [c] (by simp) id
    obtain ⟨hkept', hpages'⟩ := hcall s c hkept hfit
    rw [answers, answers, hanswer, hnext, ih hkept' (fun id => ?_) fun behind hbehind id => ?_]
    · rw [hpages', hpages, held_concat]
    · rw [List.append_assoc]
      exact hfits (c :: behind) (List.cons_prefix_cons.2 ⟨rfl, hbehind⟩) id

end SessionStore

open SessionStore (Call call answers held Within StoreHistory)

/-! ## Within the limits -/

namespace AgedStore

theorem dropOldest_eq_self {budget size : Nat} {ps : List StoredPage}
    (h : byteCount ps + size ≤ budget) : dropOldest budget size ps = ps := by
  cases ps with
  | nil => rfl
  | cons p ps => exact if_pos h

theorem byteCount_concat (ps : List StoredPage) (p : StoredPage) :
    byteCount (ps ++ [p]) = byteCount ps + p.2.length := by
  induction ps with
  | nil => simp [byteCount]
  | cons q ps ih => simp [byteCount, ih, Nat.add_assoc]

/-- Within its budget an aged store keeps the pages of each session. -/
theorem pages_call (s : AgedStore) (c : Call)
    (h : ∀ id, byteCount (c.change id (s.pages id)) ≤ s.budget) (id : SessionId) :
    (call s c).2.pages id = c.change id (s.pages id) := by
  cases c with
  | load session page => rfl
  | store session page data =>
    show (s.store session page data).pages id = _
    rw [store, Call.change]
    by_cases hdata : data = []
    · rw [if_pos hdata, if_neg fun h => h.2 hdata]
    · have hfits := h session
      rw [Call.change, if_pos ⟨rfl, hdata⟩, byteCount_concat] at hfits
      rw [if_neg hdata, modify]
      by_cases hid : id = session
      · rw [if_pos ⟨hid.symm, hdata⟩, hid]
        simp only [↓reduceIte]
        rw [withNew, dropOldest_eq_self hfits]
      · rw [if_neg fun h => hid h.1.symm]
        exact if_neg hid
  | remove session page =>
    show (s.remove session page).pages id = _
    simp only [remove, modify, Call.change, eq_comm]
  | removeSession session =>
    show (s.removeSession session).pages id = _
    simp only [removeSession, modify, Call.change, eq_comm]

end AgedStore

namespace MemoryStore

theorem pages_set (s : MemoryStore) (session id : SessionId) (ps : List StoredPage) :
    pages { s with sessions := s.sessions.set session ps } id =
      if session = id then ps else s.pages id := by
  by_cases hid : session = id
  · rw [if_pos hid, ← hid, pages, Keyed.get?_set_self]
    rfl
  · rw [if_neg hid, pages, Keyed.get?_set_of_ne _ _ (Ne.symm hid), ← pages]

/-- Within its limit a store in memory keeps the pages of each session. -/
theorem pages_call (s : MemoryStore) (c : Call)
    (h : ∀ id, (c.change id (s.pages id)).length ≤ s.limit) (id : SessionId) :
    (call s c).2.pages id = c.change id (s.pages id) := by
  cases c with
  | load session page => rfl
  | store session page data =>
    show (s.store session page data).pages id = _
    rw [store, Call.change]
    by_cases hdata : data = []
    · rw [if_pos hdata, if_neg fun h => h.2 hdata]
    · have hfits := h session
      rw [Call.change, if_pos ⟨rfl, hdata⟩, List.length_append, List.length_singleton] at hfits
      have hnewest : newest (s.limit - 1) (without page (s.pages session)) =
          AgedStore.without page (s.pages session) :=
        newest_of_length_le (Nat.le_sub_one_of_lt hfits)
      rw [if_neg hdata, hnewest, pages_set]
      by_cases hid : session = id
      · rw [if_pos hid, if_pos ⟨hid, hdata⟩, hid]
      · rw [if_neg hid, if_neg fun h => hid h.1]
  | remove session page =>
    show (s.remove session page).pages id = _
    rw [remove, Call.change]
    cases hget : s.sessions.get? session with
    | some ps =>
      have hpages : s.pages session = ps := by rw [pages, hget]; rfl
      dsimp only
      rw [pages_set, ← hpages]
      by_cases hid : session = id
      · rw [if_pos hid, if_pos hid, hid]
        rfl
      · rw [if_neg hid, if_neg hid]
    | none =>
      by_cases hid : session = id
      · rw [if_pos hid, ← hid, pages, hget]
        rfl
      · rw [if_neg hid]
  | removeSession session =>
    show (s.removeSession session).pages id = _
    rw [removeSession, Call.change]
    by_cases hid : session = id
    · rw [if_pos hid, ← hid, pages, Keyed.get?_erase_self]
      rfl
    · rw [if_neg hid, pages, Keyed.get?_erase_of_ne _ (Ne.symm hid), ← pages]

theorem limit_call (s : MemoryStore) (c : Call) : (call s c).2.limit = s.limit := by
  cases c with
  | load session page => rfl
  | store session page data => exact limit_store s session page data
  | remove session page =>
    show (s.remove session page).limit = s.limit
    rw [remove]
    split <;> rfl
  | removeSession session => rfl

end MemoryStore

namespace DiskStore

variable {disk : Disk} {place : Location}

/-- A store on disk that starts in an empty folder and one in memory answer any calls as the history
does, and so alike, if the sessions have folders of their own and the pages that are stored and not
removed are within the budget and the limit all the time. -/
theorem answers_eq_history (folder : StoreFolder) (budget capacity limit : Nat)
    (objects : Heap Session) (calls : List Call) (hdisk : disk.OffersEmpty folder.root place)
    (hown : folder.OwnFolders (calls.map Call.session))
    (hadmitted : ∀ c ∈ calls, c.IsAdmitted folder) (hsmall : ∀ c ∈ calls, c.isSmall)
    (hwithin : Within budget (max limit 1) calls) :
    ∃ s, start folder budget capacity disk objects = .ok s ∧
      answers s calls = answers (MemoryStore.ofLimit limit) calls ∧
      answers s calls = answers ({} : StoreHistory) calls := by
  obtain ⟨s, hstart, horder, hfolder, -, haged⟩ := start_of_offersEmpty hdisk
    (calls.map Call.session) budget capacity objects
  have hdisk : answers s calls = answers ({ budget } : AgedStore) calls := by
    rw [← haged]
    exact horder.answers (hfolder ▸ hown)
      (fun c hc => ⟨List.mem_map_of_mem hc, hfolder ▸ hadmitted c hc⟩) hsmall
  have hhistory : answers ({ budget } : AgedStore) calls = answers ({} : StoreHistory) calls :=
    SessionStore.answers_of_pages_call AgedStore.pages (fun s => s.budget = budget)
      (fun ps => AgedStore.byteCount ps ≤ budget) (fun _ _ _ => rfl)
      (fun s c hs hfits => ⟨(AgedStore.budget_call s c).trans hs,
        s.pages_call c fun id => hs ▸ hfits id⟩)
      rfl (fun _ => rfl) fun behind hbehind id => (hwithin behind hbehind id).2
  have hmemory : answers (MemoryStore.ofLimit limit) calls = answers ({} : StoreHistory) calls :=
    SessionStore.answers_of_pages_call MemoryStore.pages (fun s => s.limit = max limit 1)
      (fun ps => ps.length ≤ max limit 1) (fun _ _ _ => rfl)
      (fun s c hs hfits => ⟨(s.limit_call c).trans hs, s.pages_call c fun id => hs ▸ hfits id⟩)
      rfl (fun _ => rfl) fun behind hbehind id => (hwithin behind hbehind id).1
  exact ⟨s, hstart, (hdisk.trans hhistory).trans hmemory.symm, hdisk.trans hhistory⟩

/-- Page 1 is stored again with other sizes, so that bytes are used twice; session b is removed. -/
theorem answers_eq_history_of_two_sessions :
    let calls : List Call := [.store "a" 1 [1, 2], .store "a" 2 [3], .store "b" 1 [9], .store "a" 1 [4],
      .store "a" 2 [5, 6], .store "a" 2 [], .removeSession "b", .load "a" 1, .load "a" 2, .load "b" 1,
      .load "c" 1]
    ∃ s, start ⟨⟨"store"⟩⟩ 3 1 { Disk.ofHome ["home"] with limit := none } = .ok s ∧
      answers s calls = answers (MemoryStore.ofLimit 2) calls ∧
      answers s calls = [some [4], some [5, 6], none, none] := by
  intro calls
  have hdisk : Disk.OffersEmpty { Disk.ofHome ["home"] with limit := none } ⟨"store"⟩
      ["home", "store"] := ⟨⟨fun _ => rfl, rfl⟩, rfl, rfl⟩
  obtain ⟨s, hstart, hmemory, hhistory⟩ := answers_eq_history ⟨⟨"store"⟩⟩ 3 1 2 .empty calls hdisk
    (by decide) (by decide) (by decide) (by decide)
  exact ⟨s, hstart, hmemory, hhistory.trans (by decide)⟩

end DiskStore

end StatefulPages
