import StatefulPages.Cycle.Process

/-!
# What programs leave to request handling

The code of an application schedules handlers and records notes, and nothing else happens while it
runs: request handling alone begins handlers and calls listeners.

* `CycleState.QuietTo`: no handler begins and no listener is called from one state to another;
* `Program.quietTo_run`: no program does either.
-/

namespace StatefulPages

/-- Indicates that no handler begins and no listener is called. -/
def Event.isQuiet : Event → Bool
  | started _ => false
  | called .. => false
  | _ => true

variable {σ : Type}

namespace CycleState

variable {s t u : CycleState σ}

/-- From one state to another, no handler begins and no listener is called. -/
def QuietTo (s t : CycleState σ) : Prop :=
  ∃ events, t.trace = s.trace ++ events ∧ ∀ e ∈ events, e.isQuiet = true

theorem QuietTo.of_trace_eq (h : t.trace = s.trace) : s.QuietTo t :=
  ⟨[], by rw [h, List.append_nil], fun _ he => absurd he List.not_mem_nil⟩

theorem QuietTo.trans (hst : s.QuietTo t) (htu : t.QuietTo u) : s.QuietTo u := by
  obtain ⟨first, hfirst, hquiet⟩ := hst
  obtain ⟨second, hsecond, hquiet'⟩ := htu
  refine ⟨first ++ second, by rw [hsecond, hfirst, List.append_assoc], ?_⟩
  intro e he
  rcases List.mem_append.1 he with he | he
  · exact hquiet e he
  · exact hquiet' e he

theorem quietTo_record (s : CycleState σ) {e : Event} (he : e.isQuiet = true) :
    s.QuietTo (s.record e) :=
  ⟨[e], rfl, fun _ h => List.mem_singleton.1 h ▸ he⟩

theorem quietTo_schedule (s : CycleState σ) (h : Handler) : s.QuietTo (s.schedule h) :=
  ⟨[.scheduled h], rfl, fun _ h => List.mem_singleton.1 h ▸ rfl⟩

theorem quietTo_freeze (s : CycleState σ) (ref : PageRef) (frozen : Bool) :
    s.QuietTo (s.freeze ref frozen).2 :=
  ⟨_, rfl, fun _ h => List.mem_singleton.1 h ▸ rfl⟩

end CycleState

namespace Cycle

variable [SessionStore σ] (c : Cycle) (s : CycleState σ)

@[simp] theorem trace_find (id : PageId) : (c.find id s).2.trace = s.trace := by
  rw [find]
  split
  · rfl
  · split
    split <;> rfl

omit [SessionStore σ] in
@[simp] theorem trace_create (pageClass : PageClass) (p : Parameters) :
    (c.create pageClass p s).2.trace = s.trace := by
  rw [create]
  split <;> rfl

theorem trace_storePage (ref : PageRef) : (c.storePage s ref).trace = s.trace := by
  rw [storePage]
  split
  · rfl
  · split <;> rfl

@[simp] theorem trace_commit : (c.commit s).trace = s.trace := by
  have hfold : ∀ (refs : List PageRef) (t : CycleState σ),
      (refs.foldl c.storePage t).trace = t.trace := by
    intro refs
    induction refs with
    | nil => intro t; rfl
    | cons ref refs ih => intro t; rw [List.foldl_cons, ih, trace_storePage]
  exact hfold s.touched _

end Cycle

/-- No program begins a handler or calls a listener. -/
theorem Program.quietTo_run [SessionStore σ] (c : Cycle) (p : Program) (s : CycleState σ) :
    s.QuietTo (p.run c s).2 := by
  induction p generalizing s with
  | done | fail => exact .of_trace_eq rfl
  | request next ih => exact ih c.request s
  | schedule h next ih => exact (s.quietTo_schedule h).trans (ih (s.schedule h))
  | urlFor h next ih => exact ih (c.urlFor s h) s
  | find id next ih =>
    exact (CycleState.QuietTo.of_trace_eq (c.trace_find s id)).trans (ih _ (c.find id s).2)
  | create pageClass p next ih =>
    exact (CycleState.QuietTo.of_trace_eq (c.trace_create s pageClass p)).trans
      (ih _ (c.create pageClass p s).2)
  | touch ref next ih => exact (CycleState.QuietTo.of_trace_eq rfl).trans (ih (s.touch ref))
  | commit next ih =>
    exact (CycleState.QuietTo.of_trace_eq (c.trace_commit s)).trans (ih (c.commit s))
  | clear next ih => exact (CycleState.QuietTo.of_trace_eq rfl).trans (ih (c.clear s))
  | read ref next ih => exact ih (s.page ref) s
  | write ref page next ih =>
    exact (CycleState.QuietTo.of_trace_eq rfl).trans (ih { s with pages := s.pages.set ref page })
  | takeId next ih =>
    exact (CycleState.QuietTo.of_trace_eq rfl).trans
      (ih s.nextId { s with nextId := s.nextId + 1 })
  | note n next ih => exact (s.quietTo_record rfl).trans (ih (s.record (.noted n)))

end StatefulPages
