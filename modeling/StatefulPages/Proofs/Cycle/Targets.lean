import StatefulPages.Proofs.Cycle.Steps

/-!
# The targets of calls

The guards of a call stand in several places: where its page is looked for, where a page that had to be
made again is rendered instead, and where the component and its behavior are looked up. `Cycle.Reaches`
says all of them at once, and nothing runs unless they hold.

* `Cycle.target?_eq_some_iff`: the guards decide what is called;
* `Cycle.call_of_target`, `Cycle.acts_call_of_none`: a call runs the listener of its target, and only
  request handling acts if there is none.
-/

namespace StatefulPages

variable {σ : Type} [SessionStore σ]

/-- The listener that a call reaches, on a page as it was found. -/
structure Target (σ : Type) where
  page : PageRef
  /-- The state in which the page has been found, and nothing been done with it. -/
  found : CycleState σ
  listener : Listener

namespace Cycle

/-- How a source comes to a page that listeners may be called on: it is the live page, or a page that was
never stored, or the page that the session has, if that is of the class and has been rendered as often as
described. A page that is made in place of one that is gone is no such page. -/
inductive Finds (c : Cycle) (source : PageSource) (s : CycleState σ) :
    PageRef → CycleState σ → Prop where
  | live {page : PageRef} (hlive : source.live = some page) : Finds c source s page s
  | made {page : PageRef} {found : CycleState σ} (hlive : source.live = none) (hid : source.id = none)
      {pageClass : PageClass} (hclass : source.pageClass = some pageClass)
      (hcreate : c.create pageClass source.parameters s = (.ok page, found)) :
      Finds c source s page found
  | kept {page : PageRef} {found : CycleState σ} (hlive : source.live = none) {id : PageId}
      (hid : source.id = some id) (hfind : c.find id s = (some page, found))
      (hclass : ∀ k ∈ source.pageClass, (found.page page).pageClass = k)
      (hcount : ∀ n ∈ source.renderCount, (found.page page).renderCount = n) :
      Finds c source s page found

/-- A call reaches a listener: on a page that its source comes to, there is a component at the path of the
call that says it belongs to the page, and the listener is the one of the component, or of the behavior
if the call names one. -/
structure Reaches (c : Cycle) (call : ListenerCall) (s : CycleState σ) (target : Target σ) :
    Prop where
  page : c.Finds call.page s target.page target.found
  listener : ∃ component, c.application.component? target.found.pages target.page call.path = some component ∧
    component.owner = some (target.found.page target.page).id ∧
    component.listener? call.behavior = some target.listener

/-- The listener that a call reaches on a page. -/
def listenerOn? (c : Cycle) (call : ListenerCall) (page : PageRef) (found : CycleState σ) :
    Option Listener :=
  (c.application.component? found.pages page call.path).bind fun component =>
    if component.owner = some (found.page page).id then component.listener? call.behavior else none

/-- What a call reaches. -/
def target? (c : Cycle) (call : ListenerCall) (s : CycleState σ) : Option (Target σ) :=
  match c.resolve call.page s with
  | (.error _, _) => none
  | (.ok r, found) =>
    if r.created ∧ call.page.id ≠ none then none
    else (c.listenerOn? call r.page found).map fun listener => { page := r.page, found, listener }

variable {c : Cycle} {call : ListenerCall} {s : CycleState σ} {target : Target σ}

/-! ## The guards -/

theorem isOfClass_iff {source : PageSource} {page : Page} :
    isOfClass source page = true ↔ ∀ k ∈ source.pageClass, page.pageClass = k := by
  rw [isOfClass]
  cases source.pageClass <;> simp

theorem Finds.resolve {source : PageSource} {page : PageRef} {found : CycleState σ}
    (h : c.Finds source s page found) :
    ∃ created, c.resolve source s = (.ok { page, created }, found) ∧
      ¬(created = true ∧ source.id ≠ none) := by
  cases h with
  | live hlive =>
    refine ⟨false, ?_, by simp⟩
    rw [Cycle.resolve, hlive]
  | made hlive hid hclass hcreate =>
    refine ⟨true, ?_, by simp [hid]⟩
    rw [Cycle.resolve, hlive, hid]
    dsimp only
    rw [createFor, hclass]
    dsimp only
    rw [hcreate]
    rfl
  | kept hlive hid hfind hclass hcount =>
    refine ⟨false, ?_, by simp⟩
    have hcurrent : source.renderCount.filter (· ≠ (found.page page).renderCount) = none := by
      rw [Option.filter_eq_none_iff]
      intro n hn
      simpa using (hcount n hn).symm
    rw [Cycle.resolve, hlive, hid]
    dsimp only
    rw [hfind, Option.filter_some, if_pos (isOfClass_iff.2 hclass)]
    dsimp only
    rw [hcurrent]

omit [SessionStore σ] in
theorem createFor_created {source : PageSource} {r : Resolved} {found : CycleState σ}
    (h : c.createFor source s = (.ok r, found)) : r.created = true ∧
      ∃ pageClass, source.pageClass = some pageClass ∧
        c.create pageClass source.parameters s = (.ok r.page, found) := by
  rw [createFor] at h
  split at h
  · cases h
  · rename_i pageClass hclass
    generalize hcreate : c.create pageClass source.parameters s = created at h
    obtain ⟨_ | page, t⟩ := created
    · cases h
    · cases h
      exact ⟨rfl, pageClass, hclass, hcreate⟩

theorem finds_of_resolve {source : PageSource} {r : Resolved} {found : CycleState σ}
    (h : c.resolve source s = (.ok r, found)) (hkept : ¬(r.created = true ∧ source.id ≠ none)) :
    c.Finds source s r.page found := by
  rw [Cycle.resolve] at h
  split at h
  · rename_i page _ hlive
    cases h
    exact .live hlive
  · rename_i hlive hid
    obtain ⟨-, pageClass, hclass, hcreate⟩ := createFor_created h
    exact .made hlive hid hclass hcreate
  · rename_i id hlive hid
    generalize hfind : c.find id s = looked at h
    obtain ⟨looked, t⟩ := looked
    dsimp only at h
    split at h
    · rename_i page hpage
      rw [Option.filter_eq_some_iff] at hpage
      obtain ⟨rfl, hclass⟩ := hpage
      split at h
      · cases h
      · rename_i hcount
        cases h
        refine .kept hlive hid hfind (isOfClass_iff.1 hclass) ?_
        intro n hn
        rw [Option.filter_eq_none_iff] at hcount
        exact (by simpa using hcount n hn : n = _).symm
    · split at h
      · cases h
      · -- the page was made in place of one that is gone
        obtain ⟨hcreated, -⟩ := createFor_created h
        exact absurd ⟨hcreated, by simp [hid]⟩ hkept

omit [SessionStore σ] in
theorem listenerOn?_eq_some_iff {page : PageRef} {found : CycleState σ} {listener : Listener} :
    c.listenerOn? call page found = some listener ↔
      ∃ component, c.application.component? found.pages page call.path = some component ∧
        component.owner = some (found.page page).id ∧
        component.listener? call.behavior = some listener := by
  simp only [listenerOn?, Option.bind_eq_some_iff, Option.ite_none_right_eq_some]

/-- A call reaches what the guards let through. -/
theorem target?_eq_some_iff : c.target? call s = some target ↔ c.Reaches call s target := by
  constructor
  · intro h
    rw [target?] at h
    split at h
    · cases h
    · rename_i r found hresolve
      split at h
      · cases h
      · rename_i hkept
        obtain ⟨listener, hlistener, rfl⟩ := Option.map_eq_some_iff.1 h
        exact ⟨finds_of_resolve hresolve hkept, listenerOn?_eq_some_iff.1 hlistener⟩
  · rintro ⟨hfinds, hlistener⟩
    obtain ⟨created, hresolve, hkept⟩ := hfinds.resolve
    rw [target?, hresolve]
    dsimp only
    rw [if_neg hkept, listenerOn?_eq_some_iff.2 hlistener]
    rfl

end Cycle

/-! ## What is done -/

/-- The state in which the listener of a target begins: it sees the page as it is then. -/
def Target.start (target : Target σ) (c : Cycle) (call : ListenerCall) : CycleState σ :=
  let ready := c.readyCall call target.page target.found
  ready.record (.called target.page (ready.page target.page).id call.path call.behavior
    call.interface (ready.page target.page).frozen)

namespace Cycle

variable {c : Cycle} {call : ListenerCall} {s : CycleState σ} {target : Target σ}

/-- A call runs the listener that it reaches. -/
theorem call_of_target (h : c.target? call s = some target) :
    c.call call s = c.endCall call target.page (target.found.page target.page).frozen
      ((target.listener call.interface).run c (target.start c call)) := by
  obtain ⟨hfinds, component, hcomponent, howner, hlistener⟩ := target?_eq_some_iff.1 h
  obtain ⟨created, hresolve, hkept⟩ := hfinds.resolve
  rw [Cycle.call, hresolve]
  dsimp only
  rw [if_neg hkept]
  exact callOn_eq hcomponent howner hlistener

/-- A behavior that is not there is not called. -/
theorem invoke_of_none {component : Component} (h : component.listener? call.behavior = none)
    (page : PageRef) (s : CycleState σ) : (c.invoke call page component s).2 = s := by
  rw [invoke]
  cases hbehavior : call.behavior with
  | none =>
    rw [hbehavior] at h
    cases h
  | some index =>
    rw [hbehavior] at h
    dsimp only
    rw [show component.behaviors[index]? = none from h]

theorem acts_invokeFrozen_of_none {component : Component}
    (h : component.listener? call.behavior = none) (page : PageRef) (s : CycleState σ) :
    c.Acts s (c.invokeFrozen call page component s).2 := by
  rw [invokeFrozen]
  split
  · rename_i hajax
    dsimp only
    rw [invoke_of_none h]
    exact (Relation.ReflTransGen.single (.freeze hajax page true)).tail (.freeze hajax page _)
  · rw [invoke_of_none h]

theorem acts_callOn_of_none {page : PageRef} {found : CycleState σ}
    (h : c.listenerOn? call page found = none) : c.Acts found (c.callOn call page found).2 := by
  rw [callOn]
  split
  · exact .refl
  · rename_i component hcomponent
    split
    · exact .refl
    · rename_i howner
      rw [listenerOn?, hcomponent, Option.bind_some, if_pos (Decidable.not_not.1 howner)] at h
      have hinvoke := (c.acts_scheduleRender found call page).trans
        (acts_invokeFrozen_of_none h page _)
      generalize c.invokeFrozen call page component (c.scheduleRender call page found) = invoked at hinvoke
      obtain ⟨_ | _, t⟩ := invoked
      · exact hinvoke
      · exact hinvoke.tail (.touch page)

/-- A call that reaches no listener leaves the application alone. -/
theorem acts_call_of_none (h : c.target? call s = none) : c.Acts s (c.call call s).2 := by
  have hresolve := c.acts_resolve s call.page
  rw [target?] at h
  rw [Cycle.call]
  generalize c.resolve call.page s = resolved at h hresolve
  obtain ⟨_ | r, found⟩ := resolved
  · exact hresolve
  · dsimp only at h ⊢
    split at h
    · rename_i hmade
      rw [if_pos hmade]
      exact hresolve.tail (.touch r.page)
    · rename_i hkept
      rw [if_neg hkept]
      exact hresolve.trans (acts_callOn_of_none (Option.map_eq_none_iff.1 h))

end Cycle

end StatefulPages
