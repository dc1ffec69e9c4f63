import StatefulPages.Proofs.Cycle.PageObjects
import StatefulPages.Proofs.Cycle.RequestTurns
import StatefulPages.Scripted.Script
import StatefulPages.Storage.MemoryStore

/-!
# Frozen pages

During a request of a script a page is frozen when its listeners begin, and afterwards it is told what it
had been told before, however the listener ends: whether it is done, fails or panics. So a page that takes new
ids only in its own listeners, and only while it is not frozen, has one id in all of the request, unless its
listeners themselves set the flag back. During other requests no page is told anything.

* `Turn.frozen_start`, `Turn.frozen_response`: the page of a listener before and after its call;
* `Turn.HoldsId.isChain_moments`: a turn leaves a page its id;
* `Cycle.process_freezing`: the pages of a request;
* `Cycle.process_takes_id_of_thaw`: a listener that sets the flag back.
-/

namespace StatefulPages

variable {σ : Type} [SessionStore σ]

namespace Cycle

variable {c : Cycle} {call : ListenerCall}

theorem frozen_invokeFrozen (hajax : c.request.isAjax = true) (call : ListenerCall) (page : PageRef)
    (component : Component) (s : CycleState σ) :
    ((c.invokeFrozen call page component s).2.page page).frozen = (s.page page).frozen := by
  rw [invokeFrozen, if_pos hajax]
  exact CycleState.frozen_freeze _ page (s.page page).frozen

/-- However a call on a page ends, the page is as frozen as before. -/
theorem frozen_callOn (hajax : c.request.isAjax = true) (page : PageRef) (s : CycleState σ) :
    ((c.callOn call page s).2.page page).frozen = (s.page page).frozen := by
  rw [callOn]
  split
  · rfl
  · rename_i component _
    split
    · rfl
    · have hinvoke := frozen_invokeFrozen hajax call page component (c.scheduleRender call page s)
      rw [c.page_scheduleRender] at hinvoke
      generalize c.invokeFrozen call page component (c.scheduleRender call page s) = invoked at hinvoke
      obtain ⟨_ | _, t⟩ := invoked <;> exact hinvoke

theorem frozen_call (hajax : c.request.isAjax = true) {s found : CycleState σ} {r : Resolved}
    (hresolve : c.resolve call.page s = (.ok r, found)) :
    ((c.call call s).2.page r.page).frozen = (found.page r.page).frozen := by
  rw [Cycle.call, hresolve]
  dsimp only
  split
  · rfl
  · exact frozen_callOn hajax r.page found

end Cycle

namespace Turn

variable {c : Cycle} {turn next : Turn σ} {call : ListenerCall} {target : Target σ}

omit [SessionStore σ] in
/-- A listener that is called for a script finds its page frozen. -/
theorem frozen_start (hajax : c.request.isAjax = true) (target : Target σ) (call : ListenerCall) :
    ((target.start c call).page target.page).frozen = true := by
  have hready := c.page_readyCall call target.page target.found
  rw [hajax] at hready
  exact congrArg Page.frozen hready

/-- When a handler of a listener ends, the page that it worked on is as frozen as it found it. -/
theorem frozen_response (hajax : c.request.isAjax = true) {r : Resolved} {found : CycleState σ}
    (hhandler : turn.handler = .listener call)
    (hresolve : c.resolve call.page turn.begun = (.ok r, found)) :
    ((turn.response c).2.page r.page).frozen = (found.page r.page).frozen := by
  rw [response, hhandler]
  exact Cycle.frozen_call hajax hresolve

/-- To find its page changes none. -/
theorem keepsPages_found (hcall : turn.call? c = some (call, target)) :
    turn.before.KeepsPages target.found := by
  obtain ⟨-, htarget⟩ := call?_eq_some_iff.1 hcall
  obtain ⟨created, hresolve, -⟩ := (Cycle.target?_eq_some_iff.1 htarget).page.resolve
  have hfound := c.keepsPages_resolve call.page turn.begun
  rw [hresolve] at hfound
  exact ⟨hfound.next, hfound.page⟩

/-! ## Moments -/

/-- The moments of a turn: its beginning, when its page has been found, the steps of the listener that is
called, and its end. -/
def moments (turn : Turn σ) (c : Cycle) : List (CycleState σ) :=
  match turn.call? c with
  | some (_, target) =>
    turn.before :: target.found :: ((turn.steps c).map Prod.snd ++ [(turn.ended c).2])
  | none => [turn.before, (turn.ended c).2]

theorem head?_moments (turn : Turn σ) (c : Cycle) : (turn.moments c).head? = some turn.before := by
  rw [moments]
  split <;> rfl

theorem getLast?_moments (turn : Turn σ) (c : Cycle) :
    (turn.moments c).getLast? = some (turn.ended c).2 := by
  rw [moments]
  split
  · rw [← List.cons_append, ← List.cons_append, List.getLast?_concat]
  · rfl

/-- Indicates that a page is there before its own listeners are called, and that it takes a new id only in
these, and only while it is not frozen. -/
structure TakesIds (turn : Turn σ) (c : Cycle) (ref : PageRef) : Prop where
  there : ∀ call target, turn.call? c = some (call, target) → target.page = ref →
    ref < target.found.pages.next
  own : ∀ call target, turn.call? c = some (call, target) → target.page = ref →
    ∀ step ∈ turn.steps c, ∀ page next, step.1 = .write ref page next →
      (step.2.page ref).frozen = true → page.id = (step.2.page ref).id
  others : ∀ call target, turn.call? c = some (call, target) → target.page ≠ ref →
    ∀ step ∈ turn.steps c, ∀ page next, step.1 = .write ref page next →
      page.id = (step.2.page ref).id

/-- Indicates that, besides, its own listeners leave it to request handling to set the flag back. -/
structure HoldsId (turn : Turn σ) (c : Cycle) (ref : PageRef) : Prop extends turn.TakesIds c ref where
  flag : ∀ call target, turn.call? c = some (call, target) → target.page = ref →
    ∀ step ∈ turn.steps c, ∀ page next, step.1 = .write ref page next →
      (step.2.page ref).frozen = true → page.frozen = true

theorem HoldsId.isChain_steps {ref : PageRef} (h : turn.HoldsId c ref)
    (hajax : c.request.isAjax = true) (hcall : turn.call? c = some (call, target)) :
    ((turn.steps c).map Prod.snd).IsChain (CycleState.KeepsId ref) := by
  have hown := h.own call target hcall
  have hflag := h.flag call target hcall
  have hothers := h.others call target hcall
  rw [steps_of_call hcall] at hown hflag hothers ⊢
  by_cases hpage : target.page = ref
  · have hstart : ref < (target.start c call).pages.next := by
      have hready := Cycle.keepsId_of_acts (c.acts_readyCall target.found call target.page) ref
      exact Nat.lt_of_lt_of_le (h.there call target hcall hpage) hready.next
    have hfrozen := Program.frozen_of_mem_steps hstart (hpage ▸ frozen_start hajax target call)
      (hflag hpage)
    exact Program.isChain_keepsId fun step hstep page next hwrite =>
      hown hpage step hstep page next hwrite (hfrozen step hstep)
  · exact Program.isChain_keepsId (hothers hpage)

/-- In a turn a page keeps its id. -/
theorem HoldsId.isChain_moments {ref : PageRef} (h : turn.HoldsId c ref)
    (hajax : c.request.isAjax = true) : (turn.moments c).IsChain (CycleState.KeepsId ref) := by
  have hended := (c.keepsPages_settle (turn.response c)).keepsId ref
  rw [moments]
  split
  · rename_i call target hcall
    have hready := Cycle.keepsId_of_acts (c.acts_readyCall target.found call target.page) ref
    have hstart : target.found.KeepsId ref (target.start c call) := ⟨hready.next, hready.id⟩
    have hend := Cycle.keepsId_of_acts (acts_response_of_call hcall) ref
    have hsteps := h.isChain_steps hajax hcall
    have hlast := (target.listener call.interface).getLast?_steps c (target.start c call)
    obtain ⟨later, hlater⟩ := (target.listener call.interface).exists_steps c (target.start c call)
    rw [steps_of_call hcall] at hsteps ⊢
    rw [List.isChain_cons_cons, List.isChain_cons, List.isChain_append]
    refine ⟨(keepsPages_found hcall).keepsId ref, ?_, hsteps, .singleton _, ?_⟩
    · intro first hfirst
      rw [hlater] at hfirst
      cases hfirst
      exact hstart
    · intro last hmem ended hended'
      rw [hlast] at hmem
      cases hmem
      cases hended'
      exact hend.trans hended
  · rename_i hcall
    have hresponse := Cycle.keepsId_of_acts (acts_response_of_none hcall) ref
    have hbefore : turn.before.KeepsId ref (turn.response c).2 := ⟨hresponse.next, hresponse.id⟩
    exact .cons_cons (hbefore.trans hended) (.singleton _)

/-! ## Flags -/

/-- A turn during a request of a script. -/
structure Freezes (turn : Turn σ) (c : Cycle) : Prop where
  /-- The page of the listener that is called is frozen when the listener begins. -/
  starts : ∀ call target, turn.call? c = some (call, target) →
    ((target.start c call).page target.page).frozen = true
  /-- The page of a handler of a listener is as frozen, when the handler ends, as it was when it was
  found; and it was found as it was before, unless it was read or made just then. -/
  restores : ∀ call r found, turn.handler = .listener call →
    c.resolve call.page turn.begun = (.ok r, found) →
    turn.before.KeepsPages found ∧ ((turn.response c).2.page r.page).frozen = (found.page r.page).frozen
  /-- Nothing changes after that. -/
  settles : (turn.response c).2.KeepsPages (turn.ended c).2

/-- A turn during any other request. -/
structure FreezesNone (turn : Turn σ) (c : Cycle) : Prop where
  events : ∀ e ∈ turn.events c, e.isFreeze = false
  /-- Only the listener that is called changes pages, and nothing does if none is called. -/
  ready : ∀ call target, turn.call? c = some (call, target) →
    turn.before.KeepsPages (target.start c call) ∧
      ((target.listener call.interface).run c (target.start c call)).2.KeepsPages (turn.ended c).2
  idle : turn.call? c = none → turn.before.KeepsPages (turn.ended c).2

theorem freezes (hajax : c.request.isAjax = true) (turn : Turn σ) : turn.Freezes c where
  starts call target _ := frozen_start hajax target call
  restores call r found hhandler hresolve := by
    have hfound := c.keepsPages_resolve call.page turn.begun
    rw [hresolve] at hfound
    exact ⟨⟨hfound.next, hfound.page⟩, frozen_response hajax hhandler hresolve⟩
  settles := c.keepsPages_settle (turn.response c)

theorem isFreeze_of_records (hajax : c.request.isAjax = false) {e : Event} (h : c.records e = true) :
    e.isFreeze = false := by
  cases e with
  | froze => exact absurd (hajax.symm.trans h) Bool.false_ne_true
  | _ => rfl

/-- Request handling tells no page anything if no script made the request. -/
theorem keepsPages_of_acts (hajax : c.request.isAjax = false) {s t : CycleState σ} (h : c.Acts s t) :
    s.KeepsPages t := by
  obtain ⟨events, htrace, hkeeps⟩ := Cycle.keepsPages_of_acts h
  obtain ⟨events', hworks⟩ := Cycle.works_of_acts h
  have hsame : events' = events := List.append_cancel_left (hworks.trace.symm.trans htrace)
  exact hkeeps fun e he => isFreeze_of_records hajax (hworks.records e (hsame ▸ he))

theorem freezesNone (hajax : c.request.isAjax = false) (turn : Turn σ) : turn.FreezesNone c where
  events := by
    obtain ⟨rest, hevents, hrest⟩ := turn.events_eq_cons c
    rw [hevents, List.forall_mem_cons]
    refine ⟨rfl, fun e he => ?_⟩
    rcases hrest e he with hrecords | ⟨call, target, -, rfl⟩
    · exact isFreeze_of_records hajax hrecords
    · rfl
  ready call target hcall := by
    have hready := keepsPages_of_acts hajax (c.acts_readyCall target.found call target.page)
    have hstart : target.found.KeepsPages (target.start c call) := ⟨hready.next, hready.page⟩
    have hend := keepsPages_of_acts hajax (acts_response_of_call hcall)
    exact ⟨(keepsPages_found hcall).trans hstart, hend.trans (c.keepsPages_settle (turn.response c))⟩
  idle hcall := by
    have hresponse := keepsPages_of_acts hajax (acts_response_of_none hcall)
    have hended := hresponse.trans (c.keepsPages_settle (turn.response c))
    exact ⟨hended.next, hended.page⟩

end Turn

/-! ## The request -/

namespace Cycle

variable {c : Cycle} {n : Nat} {s t : CycleState σ} {ref : PageRef}

/-- The moments of a request before it is committed. -/
def moments (c : Cycle) (n : Nat) (s : CycleState σ) : List (CycleState σ) :=
  s :: (c.turns n s).flatMap (·.moments c)

theorem isChain_moments (hajax : c.request.isAjax = true)
    (hholds : ∀ turn ∈ c.turns n s, turn.HoldsId c ref) :
    (c.moments n s).IsChain (CycleState.KeepsId ref) := by
  have hturns : ((c.turns n s).flatMap (·.moments c)).IsChain (CycleState.KeepsId ref) := by
    have hnil : [] ∉ (c.turns n s).map (·.moments c) := by
      rw [List.mem_map]
      rintro ⟨turn, -, hturn⟩
      have hhead := turn.head?_moments c
      rw [hturn] at hhead
      cases hhead
    rw [List.flatMap_def, List.isChain_flatten hnil, List.forall_mem_map, List.isChain_map]
    refine ⟨fun turn hturn => (hholds turn hturn).isChain_moments hajax, ?_⟩
    refine (c.isChain_turns n s).imp ?_
    intro turn next hprecedes ended hended before hbefore
    rw [turn.getLast?_moments, Option.mem_some_iff] at hended
    rw [next.head?_moments, Option.mem_some_iff] at hbefore
    obtain ⟨outcome, hnext⟩ := Turn.ended_of_precedes hprecedes
    rw [← hended, ← hbefore, hnext]
    exact .of_eq rfl
  rw [moments, List.isChain_cons]
  refine ⟨?_, hturns⟩
  intro first hfirst
  cases hcases : c.turns n s with
  | nil =>
    rw [hcases] at hfirst
    cases hfirst
  | cons turn later =>
    have hbefore := before_of_head? (show turn ∈ (c.turns n s).head? by rw [hcases]; rfl)
    rw [hcases, List.flatMap_cons, List.head?_append, turn.head?_moments] at hfirst
    cases hfirst
    rw [hbefore]
    exact .of_eq rfl

/-- The last moment of a request is the end of its turns. -/
theorem getLast?_moments (c : Cycle) (n : Nat) (s : CycleState σ) :
    ∃ last ∈ (c.moments n s).getLast?, last.pages = (c.endOf (c.turns n s) s).pages := by
  rw [moments]
  cases hlast : (c.turns n s).getLast? with
  | none =>
    rw [List.getLast?_eq_none_iff.1 hlast]
    exact ⟨s, rfl, rfl⟩
  | some last =>
    obtain ⟨earlier, hearlier⟩ := List.getLast?_eq_some_iff.1 hlast
    refine ⟨(last.ended c).2, ?_, by rw [endOf_of_getLast? hlast]⟩
    rw [hearlier, List.flatMap_append, List.flatMap_singleton, ← List.cons_append,
      List.getLast?_append, last.getLast?_moments]
    rfl

/-- In a request of a script every listener finds its page frozen, and a page is as frozen after a handler
as before it, also if the listener fails or panics. So a page that is there keeps its id for the rest of the
request, whatever the listeners do, if only its own take new ids, and only while it is not frozen, and if
these do not set the flag back themselves. In any other request no page is told anything. -/
theorem process_freezing (c : Cycle) (n : Nat) (s : CycleState σ) :
    (c.request.isAjax = true → (∀ turn ∈ c.turns n s, turn.Freezes c) ∧
      ∀ ref, (∀ turn ∈ c.turns n s, turn.HoldsId c ref) →
        (c.moments n s).Pairwise (CycleState.KeepsId ref) ∧
        ∀ result t, c.process n s = some (result, t) → ∀ u ∈ c.moments n s, u.KeepsId ref t) ∧
    (c.request.isAjax = false → ∀ turn ∈ c.turns n s, turn.FreezesNone c) := by
  refine ⟨fun hajax => ⟨fun turn _ => turn.freezes hajax, ?_⟩, fun hajax turn _ => turn.freezesNone hajax⟩
  intro ref hholds
  have hchain := isChain_moments hajax hholds
  refine ⟨hchain.pairwise, ?_⟩
  intro result t hprocess u hu
  obtain ⟨last, hlast, hend⟩ := c.getLast?_moments n s
  have hpages : t.pages = last.pages := by
    rw [eq_finish_of_process hprocess, hend]
    exact pages_commit ..
  have hall : (c.moments n s ++ [t]).IsChain (CycleState.KeepsId ref) := by
    rw [List.isChain_append]
    refine ⟨hchain, .singleton t, ?_⟩
    intro moment hmoment ended hended
    cases hended
    rw [Option.mem_unique hmoment hlast]
    exact .of_eq hpages
  exact (List.pairwise_append.1 hall.pairwise).2.2 u hu t (List.mem_singleton_self t)

end Cycle

/-! ## Scripted pages -/

/-- A program writes one page only, and each time makes a certain change. -/
def Program.WritesOwn (c : Cycle) (own : PageRef) (changes : Page → Page → Prop) (p : Program)
    (s : CycleState σ) : Prop :=
  ∀ step ∈ p.steps c s, ∀ ref page next, step.1 = .write ref page next →
    ref = own ∧ changes (step.2.page ref) page

/-- Indicates a script in which no component sets the flag of its page back. -/
def Script.NeverThaws (script : Script) : Prop :=
  ∀ entry ∈ script, ∀ component ∈ entry.2.components, Action.thaw ∉ component.actions

variable {c : Cycle} {own : PageRef}

section

variable {changes : Page → Page → Prop}

theorem Program.writesOwn_of_step? {p q : Program} {s t : CycleState σ}
    (h : p.step? c s = some (q, t)) (hq : q.WritesOwn c own changes t)
    (hwrite : ∀ ref page next, p = .write ref page next → ref = own ∧ changes (s.page ref) page) :
    p.WritesOwn c own changes s := by
  rw [WritesOwn, steps_of_step? h, List.forall_mem_cons]
  exact ⟨hwrite, hq⟩

/-- What a program leaves undone writes nothing. -/
theorem Program.writesOwn_of_ended {p : Program} {s : CycleState σ} (h : p.step? c s = none) :
    p.WritesOwn c own changes s := by
  rw [WritesOwn, steps_of_ended h, List.forall_mem_singleton]
  cases p <;> cases h <;> nofun

variable (hcount : ∀ (page : Page) (renderCount : UInt32), changes page { page with renderCount })
  (hid : ∀ (page : Page) (id : PageId), page.frozen ≠ true → changes page { page with id })

include hcount hid

/-- A scripted component counts, takes a new id for its page only while that is not frozen, and may set the
flag back. -/
theorem Action.writesOwn (a : Action)
    (hthaw : a = .thaw → ∀ page : Page, changes page { page with frozen := false })
    (call : ListenerCall) {next : Program} (hnext : ∀ s : CycleState σ, next.WritesOwn c own changes s)
    (s : CycleState σ) : (a.program own call next).WritesOwn c own changes s := by
  -- all steps but the writes of `bump`, `newId` and `thaw` leave pages alone
  cases a with
  | fail | panic => exact Program.writesOwn_of_ended rfl
  | bump =>
    refine Program.writesOwn_of_step? rfl (Program.writesOwn_of_step? rfl (hnext _) ?_) nofun
    rintro _ _ _ ⟨⟩
    exact ⟨rfl, hcount _ _⟩
  | newId =>
    refine Program.writesOwn_of_step? rfl ?_ nofun
    dsimp only
    split
    · exact hnext s
    · rename_i hthawed
      refine Program.writesOwn_of_step? rfl (Program.writesOwn_of_step? rfl (hnext _) ?_) nofun
      rintro _ _ _ ⟨⟩
      exact ⟨rfl, hid _ _ hthawed⟩
  | thaw =>
    refine Program.writesOwn_of_step? rfl (Program.writesOwn_of_step? rfl (hnext _) ?_) nofun
    rintro _ _ _ ⟨⟩
    exact ⟨rfl, hthaw rfl _⟩
  | schedule | commit | clear => exact Program.writesOwn_of_step? rfl (hnext _) nofun
  | urlFor =>
    exact Program.writesOwn_of_step? rfl (Program.writesOwn_of_step? rfl (hnext _) nofun) nofun
  | selfUrl =>
    refine Program.writesOwn_of_step? rfl (Program.writesOwn_of_step? rfl ?_ nofun) nofun
    exact Program.writesOwn_of_step? rfl (Program.writesOwn_of_step? rfl (hnext _) nofun) nofun
  | find id =>
    refine Program.writesOwn_of_step? rfl ?_ nofun
    dsimp only
    split
    · exact Program.writesOwn_of_step? rfl (Program.writesOwn_of_step? rfl (hnext _) nofun) nofun
    · exact Program.writesOwn_of_step? rfl (hnext _) nofun

theorem ScriptedComponent.writesOwn (component : ScriptedComponent)
    (hthaw : .thaw ∈ component.actions → ∀ page : Page, changes page { page with frozen := false })
    (behavior : Option Nat) (interface : ListenerInterface) (s : CycleState σ) :
    (component.listener own behavior interface).WritesOwn c own changes s := by
  rw [ScriptedComponent.listener]
  generalize component.actions = actions at hthaw
  induction actions generalizing s with
  | nil => exact Program.writesOwn_of_ended rfl
  | cons a actions ih =>
    exact a.writesOwn hcount hid (fun h => hthaw (h ▸ List.mem_cons_self)) _
      (fun s => ih s fun h => hthaw (List.mem_cons_of_mem _ h)) s

end

/-- So do the listeners of a scripted application. -/
theorem Script.writesOwn_of_call (script : Script) (changes : Page → Page → Prop)
    (hcount : ∀ (page : Page) (renderCount : UInt32), changes page { page with renderCount })
    (hid : ∀ (page : Page) (id : PageId), page.frozen ≠ true → changes page { page with id })
    (happlication : c.application = script.application)
    (hthaw : ¬script.NeverThaws → ∀ page : Page, changes page { page with frozen := false })
    {turn : Turn σ} {call : ListenerCall} {target : Target σ}
    (hcall : turn.call? c = some (call, target)) :
    ∀ step ∈ turn.steps c, ∀ ref page next, step.1 = .write ref page next →
      ref = target.page ∧ changes (step.2.page ref) page := by
  rw [Turn.steps_of_call hcall]
  obtain ⟨-, htarget⟩ := Turn.call?_eq_some_iff.1 hcall
  obtain ⟨-, component, hcomponent, -, hlistener⟩ := Cycle.target?_eq_some_iff.1 htarget
  rw [happlication] at hcomponent
  obtain ⟨p, hlookup, hfind⟩ := Option.bind_eq_some_iff.1 hcomponent
  obtain ⟨scripted, hscripted, rfl⟩ := Option.map_eq_some_iff.1 hfind
  obtain ⟨before, after, hscript, -⟩ := List.lookup_eq_some_iff.1 hlookup
  have hentry : (_, p) ∈ script := hscript ▸ List.mem_append_right _ List.mem_cons_self
  have hmem := List.mem_of_find?_eq_some hscripted
  have hwrites (behavior : Option Nat) :
      (scripted.listener target.page behavior call.interface).WritesOwn c target.page changes
        (target.start c call) :=
    scripted.writesOwn hcount hid (fun h => hthaw fun hnever => hnever _ hentry scripted hmem h) behavior
      call.interface _
  cases hbehavior : call.behavior with
  | none =>
    rw [hbehavior] at hlistener
    rw [← Option.some.inj hlistener]
    exact hwrites none
  | some index =>
    rw [hbehavior] at hlistener
    obtain ⟨i, -, hi⟩ := List.mem_map.1 (List.mem_of_getElem? hlistener)
    rw [← hi]
    exact hwrites (some i)

namespace Script

variable {turn : Turn σ} {ref : PageRef} (script : Script)
  (happlication : c.application = script.application)
  (hthere : ∀ call target, turn.call? c = some (call, target) → target.page = ref →
    ref < target.found.pages.next)

include happlication hthere

/-- The pages of scripted applications take new ids only in their own listeners, and only while they are not
frozen. -/
theorem takesIds : turn.TakesIds c ref where
  there := hthere
  own call target hcall hpage step hstep page next hwrite := by
    have hwrites := script.writesOwn_of_call (fun old new => old.frozen = true → new.id = old.id)
      (fun _ _ _ => rfl) (fun _ _ hthawed hfrozen => absurd hfrozen hthawed) happlication
      (fun _ _ _ => rfl) hcall
    exact (hwrites step hstep ref page next hwrite).2
  others call target hcall hpage step hstep page next hwrite := by
    have hwrites := script.writesOwn_of_call (fun _ _ => True) (fun _ _ => trivial)
      (fun _ _ _ => trivial) happlication (fun _ _ => trivial) hcall
    exact absurd (hwrites step hstep ref page next hwrite).1.symm hpage

/-- If their listeners do not set the flag back, the pages hold their ids. -/
theorem holdsId (hnever : script.NeverThaws) : turn.HoldsId c ref where
  toTakesIds := script.takesIds happlication hthere
  flag call target hcall _ step hstep page next hwrite := by
    have hwrites := script.writesOwn_of_call (fun old new => old.frozen = true → new.frozen = true)
      (fun _ _ => id) (fun _ _ _ => id) happlication (fun h => absurd hnever h) hcall
    exact (hwrites step hstep ref page next hwrite).2

end Script

namespace Cycle

/-- An application of which the pages do this when they are told to go on. -/
def wizardScript (actions : List Action) : Script :=
  [("Wizard", { components := [{ path := "next", actions }] })]

/-- A call to go on, on the first page object. -/
def wizardCall : ListenerCall where
  page := { live := some 0 }
  path := "next"
  interface := ⟨"IBehaviorListener", false⟩

def wizardCycle (actions : List Action) (r : Request) : Cycle where
  request := r
  mapper := .ofRequests (fun _ => 0) (fun _ => some (.listener wizardCall)) fun _ _ => none
  application := (wizardScript actions).application
  session := "s"

def wizardState : CycleState MemoryStore where
  pages := Heap.empty.add { id := 7, pageClass := "Wizard" }
  store := .ofLimit 10

/-- The page of the wizard is there when it is called. -/
theorem lt_next_of_wizard (actions : List Action) (r : Request) :
    ∀ turn ∈ (wizardCycle actions r).turns 0 wizardState, ∀ call target,
      turn.call? (wizardCycle actions r) = some (call, target) → target.page = 0 →
      0 < target.found.pages.next := by
  intro turn hturn call target hcall _
  have hturn' : turn = { handler := .listener wizardCall, before := wizardState } :=
    List.mem_singleton.1 hturn
  obtain ⟨hhandler, htarget⟩ := Turn.call?_eq_some_iff.1 hcall
  rw [hturn'] at hhandler htarget
  cases hhandler
  cases htarget
  exact Nat.zero_lt_one

/-- A wizard that takes a new id and counts goes on under its id if a script tells it to, and under a new one
if not. One that panics is not frozen any more. -/
theorem process_freezing_of_wizard :
    (∃ result t, (wizardCycle [.newId, .bump] (Request.ofText "").ajax).process 0 wizardState =
        some (result, t) ∧
      wizardState.KeepsId 0 t ∧ t.page 0 = { id := 7, pageClass := "Wizard", renderCount := 1 }) ∧
    (∃ result t, (wizardCycle [.newId, .bump] (Request.ofText "")).process 0 wizardState =
        some (result, t) ∧
      (∀ turn ∈ (wizardCycle [.newId, .bump] (Request.ofText "")).turns 0 wizardState,
        turn.FreezesNone (wizardCycle [.newId, .bump] (Request.ofText ""))) ∧
      t.page 0 = { id := 1, pageClass := "Wizard", renderCount := 1 }) ∧
    ∃ turn ∈ (wizardCycle [.panic] (Request.ofText "").ajax).turns 0 wizardState,
      (turn.response (wizardCycle [.panic] (Request.ofText "").ajax)).1 =
        .error (.panicked "listener of next panicked") ∧
      ((turn.response (wizardCycle [.panic] (Request.ofText "").ajax)).2.page 0).frozen = false ∧
      (wizardCycle [.panic] (Request.ofText "").ajax).process 0 wizardState = none := by
  refine ⟨?_, ?_, ?_⟩
  · obtain ⟨hscript, -⟩ := process_freezing (wizardCycle [.newId, .bump] (Request.ofText "").ajax) 0
      wizardState
    obtain ⟨-, hkeeps⟩ := hscript rfl
    obtain ⟨-, hend⟩ := hkeeps 0 fun turn hturn => (wizardScript [.newId, .bump]).holdsId rfl
      (lt_next_of_wizard _ _ turn hturn) (by simp [Script.NeverThaws, wizardScript])
    refine ⟨.ok (.called 7 "next"), _, rfl, hend _ _ rfl wizardState List.mem_cons_self, rfl⟩
  · obtain ⟨-, hnone⟩ := process_freezing (wizardCycle [.newId, .bump] (Request.ofText "")) 0 wizardState
    exact ⟨.ok (.called 1 "next"), _, rfl, hnone rfl, rfl⟩
  · obtain ⟨hscript, -⟩ := process_freezing (wizardCycle [.panic] (Request.ofText "").ajax) 0 wizardState
    obtain ⟨hfreezes, -⟩ := hscript rfl
    let turn : Turn MemoryStore := { handler := .listener wizardCall, before := wizardState }
    have hturn : turn ∈ (wizardCycle [.panic] (Request.ofText "").ajax).turns 0 wizardState :=
      List.mem_singleton_self turn
    obtain ⟨-, hfrozen⟩ := (hfreezes turn hturn).restores wizardCall { page := 0, created := false }
      turn.begun rfl rfl
    exact ⟨turn, hturn, rfl, hfrozen, rfl⟩

/-- A wizard that sets its flag back first goes on under a new id, though a script told it to go on and it is
not frozen when it takes the id. -/
theorem process_takes_id_of_thaw :
    (wizardCycle [.thaw, .newId] (Request.ofText "").ajax).request.isAjax = true ∧
    (∀ turn ∈ (wizardCycle [.thaw, .newId] (Request.ofText "").ajax).turns 0 wizardState,
      turn.TakesIds (wizardCycle [.thaw, .newId] (Request.ofText "").ajax) 0) ∧
    ∃ result t, (wizardCycle [.thaw, .newId] (Request.ofText "").ajax).process 0 wizardState =
        some (result, t) ∧ ¬wizardState.KeepsId 0 t := by
  refine ⟨rfl, fun turn hturn => ?_, .ok (.called 1 "next"), _, rfl, fun hkeeps => ?_⟩
  · exact (wizardScript [.thaw, .newId]).takesIds rfl (lt_next_of_wizard _ _ turn hturn)
  · exact absurd (hkeeps.id Nat.zero_lt_one) (by decide)

end Cycle

end StatefulPages
