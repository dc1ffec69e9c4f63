import Mathlib.Data.List.Chain
import StatefulPages.Proofs.Cycle.TurnEvents

/-!
# Page objects

Request handling adds page objects, and else changes none but by telling pages whether to keep their ids.
All other changes are writes of programs.

* `CycleState.KeepsPages`, `CycleState.KeepsId`: what becomes of the objects that are there;
* `Cycle.keepsPages_of_acts`, `Cycle.keepsId_of_acts`: what request handling leaves of them;
* `Program.isChain_keepsId`, `Program.frozen_of_mem_steps`: what the steps of a program leave of one.
-/

namespace StatefulPages

/-- Indicates that a page is told whether to keep its id. -/
def Event.isFreeze : Event → Bool
  | froze .. => true
  | _ => false

variable {σ : Type}

namespace CycleState

/-- The objects that are there in a state are the same in another. -/
structure KeepsPages (s t : CycleState σ) : Prop where
  next : s.pages.next ≤ t.pages.next
  page : ∀ ref < s.pages.next, t.page ref = s.page ref

/-- An object that is there in a state has the same id in another. -/
structure KeepsId (ref : PageRef) (s t : CycleState σ) : Prop where
  next : s.pages.next ≤ t.pages.next
  id : ref < s.pages.next → (t.page ref).id = (s.page ref).id

variable {s t u : CycleState σ} {ref : PageRef}

theorem KeepsPages.of_eq (h : t.pages = s.pages) : s.KeepsPages t where
  next := Nat.le_of_eq (by rw [h])
  page ref _ := by rw [CycleState.page, h, CycleState.page]

theorem KeepsPages.trans (hst : s.KeepsPages t) (htu : t.KeepsPages u) : s.KeepsPages u where
  next := Nat.le_trans hst.next htu.next
  page ref href := (htu.page ref (Nat.lt_of_lt_of_le href hst.next)).trans (hst.page ref href)

theorem KeepsPages.keepsId (h : s.KeepsPages t) (ref : PageRef) : s.KeepsId ref t where
  next := h.next
  id href := congrArg Page.id (h.page ref href)

theorem KeepsId.of_eq (h : t.pages = s.pages) : s.KeepsId ref t :=
  (KeepsPages.of_eq h).keepsId ref

theorem KeepsId.trans (hst : s.KeepsId ref t) (htu : t.KeepsId ref u) : s.KeepsId ref u where
  next := Nat.le_trans hst.next htu.next
  id href := (htu.id (Nat.lt_of_lt_of_le href hst.next)).trans (hst.id href)

instance : Trans (KeepsId (σ := σ) ref) (KeepsId ref) (KeepsId ref) := ⟨KeepsId.trans⟩

theorem keepsPages_add {page : Page} (h : t.pages = s.pages.add page) : s.KeepsPages t where
  next := by
    rw [h]
    exact Nat.le_succ _
  page ref href := by
    rw [CycleState.page, h]
    exact s.pages.get_add_of_lt page href

/-- Only what is written changes. -/
theorem keepsId_write {page : Page} {written : PageRef}
    (h : written = ref → page.id = (s.page ref).id) :
    s.KeepsId ref { s with pages := s.pages.set written page } where
  next := Nat.le_refl _
  id _ := by
    by_cases href : ref = written
    · rw [CycleState.page, href, Heap.get_set_self, h href.symm, href]
    · exact congrArg Page.id (s.pages.get_set_of_ne page href)

theorem keepsId_freeze (s : CycleState σ) (ref page : PageRef) (frozen : Bool) :
    s.KeepsId ref (s.freeze page frozen).2 :=
  have hid : page = ref → ({ s.page page with frozen } : Page).id = (s.page ref).id :=
    fun h => congrArg (fun r => (s.page r).id) h
  ⟨Nat.le_refl _, (keepsId_write hid).id⟩

theorem frozen_freeze (s : CycleState σ) (page : PageRef) (frozen : Bool) :
    ((s.freeze page frozen).2.page page).frozen = frozen := by
  simp [freeze, record, CycleState.page]

end CycleState

namespace Cycle

variable [SessionStore σ] {c : Cycle} {s t : CycleState σ}

theorem keepsPages_find (c : Cycle) (id : PageId) (s : CycleState σ) : s.KeepsPages (c.find id s).2 := by
  rw [find]
  split
  · exact .of_eq rfl
  · split
    split
    · exact CycleState.keepsPages_add rfl
    · exact .of_eq rfl

omit [SessionStore σ] in
theorem keepsPages_create (c : Cycle) (pageClass : PageClass) (p : Parameters) (s : CycleState σ) :
    s.KeepsPages (c.create pageClass p s).2 := by
  rw [create]
  split
  · exact CycleState.keepsPages_add rfl
  · exact .of_eq rfl

theorem pages_storePage (c : Cycle) (s : CycleState σ) (ref : PageRef) :
    (c.storePage s ref).pages = s.pages := by
  obtain ⟨store, hstore⟩ := c.storePage_eq s ref
  rw [hstore]

theorem pages_commit (c : Cycle) (s : CycleState σ) : (c.commit s).pages = s.pages := by
  obtain ⟨store, hcommit⟩ := c.commit_eq s
  rw [hcommit]

theorem keepsId_of_act (h : c.Act s t) (ref : PageRef) : s.KeepsId ref t := by
  cases h with
  | find id => exact (c.keepsPages_find id s).keepsId ref
  | create pageClass p => exact (c.keepsPages_create pageClass p s).keepsId ref
  | touch | schedule => exact .of_eq rfl
  | freeze _ page frozen => exact s.keepsId_freeze ref page frozen

theorem keepsId_of_acts (h : c.Acts s t) (ref : PageRef) : s.KeepsId ref t := by
  induction h with
  | refl => exact .of_eq rfl
  | tail _ hact ih => exact ih.trans (keepsId_of_act hact ref)

/-- Where no page is told anything, request handling changes none. -/
theorem keepsPages_of_acts (h : c.Acts s t) : ∃ events, t.trace = s.trace ++ events ∧
    ((∀ e ∈ events, e.isFreeze = false) → s.KeepsPages t) := by
  induction h with
  | refl => exact ⟨[], (List.append_nil _).symm, fun _ => .of_eq rfl⟩
  | @tail u v _ hact ih =>
    obtain ⟨events, htrace, hkeeps⟩ := ih
    have hact' : ∃ events, v.trace = u.trace ++ events ∧
        ((∀ e ∈ events, e.isFreeze = false) → u.KeepsPages v) := by
      cases hact with
      | find id => exact ⟨[], by simp, fun _ => c.keepsPages_find id u⟩
      | create pageClass p => exact ⟨[], by simp, fun _ => c.keepsPages_create pageClass p u⟩
      | touch => exact ⟨[], (List.append_nil _).symm, fun _ => .of_eq rfl⟩
      | schedule h => exact ⟨_, rfl, fun _ => .of_eq rfl⟩
      | freeze => exact ⟨_, rfl, fun h => Bool.noConfusion (h _ (List.mem_singleton_self _))⟩
    obtain ⟨last, htrace', hkeeps'⟩ := hact'
    refine ⟨events ++ last, by rw [htrace', htrace, List.append_assoc], fun hnone => ?_⟩
    exact (hkeeps fun e he => hnone e (List.mem_append_left _ he)).trans
      (hkeeps' fun e he => hnone e (List.mem_append_right _ he))

theorem keepsPages_of_trace_eq (h : c.Acts s t) (htrace : t.trace = s.trace) : s.KeepsPages t := by
  obtain ⟨events, hevents, hkeeps⟩ := keepsPages_of_acts h
  have hnil : events = [] := List.append_cancel_left (by rw [← hevents, htrace, List.append_nil])
  exact hkeeps fun e he => by rw [hnil] at he; cases he

theorem keepsPages_resolve (c : Cycle) (source : PageSource) (s : CycleState σ) :
    s.KeepsPages (c.resolve source s).2 :=
  keepsPages_of_trace_eq (c.acts_resolve s source) (c.trace_resolve s source)

theorem keepsPages_settle (c : Cycle) (turn : Except Failure Outcome × CycleState σ) :
    turn.2.KeepsPages (c.settle turn).2 := by
  have hdrop : (dropWaiting turn).trace = turn.2.trace ∧ (dropWaiting turn).pages = turn.2.pages := by
    rw [dropWaiting]
    split <;> exact ⟨rfl, rfl⟩
  refine (CycleState.KeepsPages.of_eq hdrop.2).trans (keepsPages_of_trace_eq (c.acts_settle turn) ?_)
  rw [trace_settle, hdrop.1]

end Cycle

/-! ## Steps of programs -/

namespace Program

variable [SessionStore σ] {c : Cycle} {p q : Program} {s t : CycleState σ} {ref : PageRef}

/-- A step that is not a write changes no page. -/
theorem keepsPages_or_write (h : p.step? c s = some (q, t)) : s.KeepsPages t ∨
    ∃ written page, p = .write written page q ∧ t = { s with pages := s.pages.set written page } := by
  cases p <;> cases h
  case find id _ => exact .inl (c.keepsPages_find id s)
  case create pageClass p _ => exact .inl (c.keepsPages_create pageClass p s)
  case commit => exact .inl (.of_eq (c.pages_commit s))
  case write => exact .inr ⟨_, _, rfl, rfl⟩
  all_goals exact .inl (.of_eq rfl)

theorem exists_steps (c : Cycle) (p : Program) (s : CycleState σ) :
    ∃ later, p.steps c s = (p, s) :: later := by
  cases h : p.step? c s with
  | none => exact ⟨[], steps_of_ended h⟩
  | some stepped => exact ⟨_, steps_of_step? h⟩

/-- A program ends in the state of its last step. -/
theorem getLast?_steps (c : Cycle) (p : Program) (s : CycleState σ) :
    ((p.steps c s).map Prod.snd).getLast? = some (p.run c s).2 := by
  induction p, s using @Program.induct σ _ c with
  | ended p s hended =>
    rw [steps_of_ended hended, run_of_ended hended]
    rfl
  | stepped p s q t hstep ih =>
    obtain ⟨later, hlater⟩ := q.exists_steps c t
    rw [steps_of_step? hstep, run_of_step? hstep, hlater, List.map_cons, List.map_cons,
      List.getLast?_cons_cons, ← List.map_cons, ← hlater, ih]

/-- A page keeps its id in all steps of a program if none writes another. -/
theorem isChain_keepsId (hwrite : ∀ step ∈ p.steps c s, ∀ page next, step.1 = .write ref page next →
      page.id = (step.2.page ref).id) :
    ((p.steps c s).map Prod.snd).IsChain (CycleState.KeepsId ref) := by
  induction p, s using @Program.induct σ _ c with
  | ended p s hended =>
    rw [steps_of_ended hended]
    exact .singleton s
  | stepped p s q t hstep ih =>
    have hkeeps : s.KeepsId ref t := by
      rw [steps_of_step? hstep, List.forall_mem_cons] at hwrite
      rcases keepsPages_or_write hstep with hkeeps | ⟨written, page, rfl, rfl⟩
      · exact hkeeps.keepsId ref
      · exact CycleState.keepsId_write fun h => hwrite.1 page q (by rw [h])
    rw [steps_of_step? hstep] at hwrite ⊢
    have hchain := ih fun step hmem => hwrite step (List.mem_cons_of_mem _ hmem)
    obtain ⟨later, hlater⟩ := q.exists_steps c t
    rw [hlater] at hchain ⊢
    exact .cons_cons hkeeps hchain

/-- A page stays frozen in all steps of a program if none writes it otherwise. -/
theorem frozen_of_mem_steps (href : ref < s.pages.next) (hfrozen : (s.page ref).frozen = true)
    (hwrite : ∀ step ∈ p.steps c s, ∀ page next, step.1 = .write ref page next →
      (step.2.page ref).frozen = true → page.frozen = true) :
    ∀ step ∈ p.steps c s, (step.2.page ref).frozen = true := by
  induction p, s using @Program.induct σ _ c with
  | ended p s hended =>
    rw [steps_of_ended hended]
    intro step hstep
    rw [List.mem_singleton.1 hstep]
    exact hfrozen
  | stepped p s q t hstep ih =>
    rw [steps_of_step? hstep, List.forall_mem_cons] at hwrite
    have hstill : ref < t.pages.next ∧ (t.page ref).frozen = true := by
      rcases keepsPages_or_write hstep with hkeeps | ⟨written, page, rfl, rfl⟩
      · exact ⟨Nat.lt_of_lt_of_le href hkeeps.next, by rw [hkeeps.page ref href]; exact hfrozen⟩
      · refine ⟨href, ?_⟩
        by_cases hother : ref = written
        · rw [CycleState.page, hother, Heap.get_set_self]
          exact hwrite.1 page q (by rw [hother]) hfrozen
        · rw [CycleState.page, Heap.get_set_of_ne _ _ hother]
          exact hfrozen
    rw [steps_of_step? hstep, List.forall_mem_cons]
    exact ⟨hfrozen, ih hstill.1 hstill.2 hwrite.2⟩

end Program

end StatefulPages
