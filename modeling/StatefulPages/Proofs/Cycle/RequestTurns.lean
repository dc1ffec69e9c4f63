import Mathlib.Data.List.Chain
import StatefulPages.Proofs.Cycle.TurnEvents

/-!
# The turns of a request

A request is a list of turns: the one of the handler that it is mapped to, and then one after the other
those of the handlers that wait, each beginning where the one before ended. A handler that fails, or finds
its page gone or changed, has the last turn.

* `Turn.response_of_precedes`: how a turn follows another;
* `Cycle.endOf_induct`: what each turn preserves, a request preserves;
* `Cycle.isChain_turns`, `Cycle.runHandlers_cases`, `Cycle.process_cases`: the turns of a request follow
  one another, and the last one gives its result;
* `Cycle.trace_of_process`: what happens in a request happens in its turns, and then it is committed.
-/

namespace StatefulPages

variable {σ : Type} [SessionStore σ]

/-! ## One turn after another -/

namespace Turn

/-- The turn of the handler that has waited longest, unless the request has failed. -/
def next? (turn : Turn σ) (c : Cycle) : Option (Turn σ) :=
  match turn.ended c with
  | (.error _, _) => none
  | (.ok _, s) =>
    match s.queue with
    | [] => none
    | h :: queue => some { handler := h, before := { s with queue } }

/-- A turn follows another. -/
def Precedes (c : Cycle) (turn next : Turn σ) : Prop :=
  turn.next? c = some next

end Turn

namespace Cycle

/-- A turn and up to `n` that follow it. -/
def turnsFrom (c : Cycle) : (n : Nat) → Turn σ → List (Turn σ)
  | 0, turn => [turn]
  | n + 1, turn =>
    match turn.next? c with
    | some next => turn :: c.turnsFrom n next
    | none => [turn]

/-- The turn of the handler that the request is mapped to. -/
def firstTurn? (c : Cycle) (s : CycleState σ) : Option (Turn σ) :=
  match c.mapper.decode s.buffer c.request with
  | (some h, buffer) => some { handler := h, before := { s with buffer } }
  | (none, _) => none

/-- The turns of a request, up to `n` of them after the first. -/
def turns (c : Cycle) (n : Nat) (s : CycleState σ) : List (Turn σ) :=
  match c.firstTurn? s with
  | some turn => c.turnsFrom n turn
  | none => []

theorem settle_of_failure (c : Cycle) {e : Failure} (he : e.isResolution = false)
    (s : CycleState σ) : c.settle (.error e, s) = (.error e, s) := by
  cases e with
  | expired | stale => cases he
  | _ => rfl

theorem queue_settle_of_unresolved (c : Cycle) (turn : Except Failure Outcome × CycleState σ)
    (h : isUnresolved turn.1 = true) : (c.settle turn).2.queue = [] := by
  rw [(c.works_settle turn).queue, dropWaiting, if_pos h]
  rfl

end Cycle

namespace Turn

variable {c : Cycle} {turn next : Turn σ}

theorem ended_of_precedes (h : turn.Precedes c next) : ∃ outcome, turn.ended c =
    (.ok outcome, { next.before with queue := next.handler :: next.before.queue }) := by
  rw [Precedes, next?] at h
  split at h
  · cases h
  · rename_i outcome s hended
    split at h
    · cases h
    · rename_i handler queue hqueue
      cases h
      exact ⟨outcome, by rw [hended, ← hqueue]⟩

/-- A turn that another follows has succeeded, and the other is the one of the handler that has waited
longest. -/
theorem response_of_precedes (h : turn.Precedes c next) : ∃ outcome, turn.response c =
    (.ok outcome, { next.before with queue := next.handler :: next.before.queue }) := by
  obtain ⟨outcome, hended⟩ := ended_of_precedes h
  have hdropped := c.queue_settle_of_unresolved (turn.response c)
  rw [ended] at hended
  rw [hended] at hdropped
  generalize turn.response c = response at hended hdropped ⊢
  obtain ⟨e | _, t⟩ := response
  · cases he : e.isResolution with
    | true =>
      -- nothing would wait any more
      cases hdropped he
    | false =>
      rw [c.settle_of_failure he] at hended
      cases hended
  · exact ⟨outcome, hended⟩

/-- If a turn succeeds and none follows it, nobody waits. -/
theorem queue_of_last (turn : Turn σ) (hnext : turn.next? c = none) {outcome : Outcome}
    (hended : (turn.ended c).1 = .ok outcome) : (turn.ended c).2.queue = [] := by
  rw [next?] at hnext
  generalize turn.ended c = ended at hnext hended ⊢
  obtain ⟨_ | _, s⟩ := ended
  · cases hended
  · cases hqueue : s.queue with
    | nil => rfl
    | cons =>
      dsimp only at hnext
      rw [hqueue] at hnext
      cases hnext

end Turn

namespace Cycle

variable {c : Cycle} {n : Nat} {turn next : Turn σ}

theorem exists_turnsFrom (c : Cycle) (n : Nat) (turn : Turn σ) :
    ∃ later, c.turnsFrom n turn = turn :: later := by
  cases n with
  | zero => exact ⟨[], rfl⟩
  | succ n =>
    rw [turnsFrom]
    split
    · exact ⟨_, rfl⟩
    · exact ⟨[], rfl⟩

theorem isChain_turnsFrom (c : Cycle) (n : Nat) (turn : Turn σ) :
    (c.turnsFrom n turn).IsChain (Turn.Precedes c) := by
  induction n generalizing turn with
  | zero => exact .singleton turn
  | succ n ih =>
    rw [turnsFrom]
    split
    · rename_i next hnext
      obtain ⟨later, hlater⟩ := c.exists_turnsFrom n next
      have hchain := ih next
      rw [hlater] at hchain ⊢
      exact .cons_cons hnext hchain
    · exact .singleton turn

/-- The first turn begins where the request does. -/
theorem before_of_head? {c : Cycle} {n : Nat} {s : CycleState σ} {first : Turn σ}
    (h : first ∈ (c.turns n s).head?) :
    first.before = { s with buffer := (c.mapper.decode s.buffer c.request).2 } := by
  rw [turns, firstTurn?] at h
  generalize c.mapper.decode s.buffer c.request = decoded at h
  obtain ⟨_ | handler, buffer⟩ := decoded
  · cases h
  · obtain ⟨later, hlater⟩ := c.exists_turnsFrom n { handler, before := { s with buffer } }
    dsimp only at h
    rw [hlater] at h
    cases h
    rfl

/-- The turns of a request follow one another. -/
theorem isChain_turns (c : Cycle) (n : Nat) (s : CycleState σ) :
    (c.turns n s).IsChain (Turn.Precedes c) := by
  rw [turns]
  split
  · exact c.isChain_turnsFrom n _
  · exact .nil

theorem following_of_precedes (h : turn.Precedes c next) (n : Nat) :
    c.following (n + 1) (turn.response c) = c.following n (next.response c) := by
  obtain ⟨outcome, hended⟩ := Turn.ended_of_precedes h
  rw [Turn.ended] at hended
  rw [following, hended]
  rfl

theorem following_zero_of_precedes (h : turn.Precedes c next) :
    c.following 0 (turn.response c) = none := by
  obtain ⟨outcome, hended⟩ := Turn.ended_of_precedes h
  rw [Turn.ended] at hended
  rw [following, hended]
  rfl

theorem following_of_last (h : turn.next? c = none) (n : Nat) :
    c.following n (turn.response c) = some (turn.ended c) := by
  cases hended : turn.ended c with
  | mk result s =>
    rw [following, ← Turn.ended, hended]
    cases result with
    | error e => rfl
    | ok outcome =>
      have hqueue := turn.queue_of_last h (congrArg Prod.fst hended)
      rw [hended] at hqueue
      dsimp only
      rw [runQueue]
      exact hqueue

/-- If the turns come to an end, the last one gives the result. -/
theorem exists_last_of_following (turn : Turn σ) {ended : Except Failure Outcome × CycleState σ}
    (h : c.following n (turn.response c) = some ended) :
    ∃ last ∈ (c.turnsFrom n turn).getLast?, last.next? c = none ∧ ended = last.ended c := by
  induction n generalizing turn with
  | zero =>
    cases hnext : turn.next? c with
    | none =>
      rw [following_of_last hnext] at h
      cases h
      exact ⟨turn, rfl, hnext, rfl⟩
    | some next =>
      rw [following_zero_of_precedes hnext] at h
      cases h
  | succ n ih =>
    rw [turnsFrom]
    cases hnext : turn.next? c with
    | none =>
      rw [following_of_last hnext] at h
      cases h
      exact ⟨turn, rfl, hnext, rfl⟩
    | some next =>
      rw [following_of_precedes hnext] at h
      obtain ⟨last, hlast, hended⟩ := ih next h
      obtain ⟨later, hlater⟩ := c.exists_turnsFrom n next
      refine ⟨last, ?_, hended⟩
      rw [hlater] at hlast
      dsimp only
      rw [hlater, List.getLast?_cons_cons]
      exact hlast

/-- What happens in turns that follow one another is in the trace, and a handler that is scheduled waits
for its turn behind those that were scheduled before. -/
theorem leaves_of_isChain {later : List (Turn σ)} {last : Turn σ}
    (h : (turn :: later).IsChain (Turn.Precedes c)) (hlast : last ∈ (turn :: later).getLast?) :
    (last.response c).2.trace = turn.before.trace ++ (turn :: later).flatMap (·.events c) ∧
      later.map Turn.handler ++ (last.response c).2.queue =
        turn.before.queue ++ scheduledIn ((turn :: later).flatMap (·.events c)) := by
  have hleaves := turn.leaves_events c
  induction later generalizing turn with
  | nil =>
    cases hlast
    simpa using ⟨hleaves.trace, hleaves.queue⟩
  | cons next later ih =>
    rw [List.isChain_cons_cons] at h
    rw [List.getLast?_cons_cons] at hlast
    obtain ⟨htrace, hqueue⟩ := ih h.2 hlast (next.leaves_events c)
    obtain ⟨outcome, hresponse⟩ := Turn.response_of_precedes h.1
    have hbefore := hleaves.trace
    have hwaiting := hleaves.queue
    rw [hresponse] at hbefore hwaiting
    dsimp only at hbefore hwaiting
    rw [List.flatMap_cons, scheduledIn_append, htrace, hbefore, List.map_cons, List.cons_append, hqueue,
      ← List.cons_append, hwaiting, List.append_assoc, List.append_assoc]
    exact ⟨rfl, rfl⟩

end Cycle

/-! ## The request -/

namespace Cycle

/-- The state in which the turns of a request are over. -/
def endOf (c : Cycle) (turns : List (Turn σ)) (s : CycleState σ) : CycleState σ :=
  match turns.getLast? with
  | some last => (last.ended c).2
  | none => { s with buffer := (c.mapper.decode s.buffer c.request).2 }

variable {c : Cycle} {n : Nat} {s t : CycleState σ} {result : Except Failure Outcome}
  {ended : Except Failure Outcome × CycleState σ}

theorem endOf_of_getLast? {turns : List (Turn σ)} {last : Turn σ} (h : last ∈ turns.getLast?) :
    c.endOf turns s = (last.ended c).2 := by
  rw [endOf, Option.mem_def.1 h]

section

variable {β : Type} {motive : β → CycleState σ → Prop} {after : β → Turn σ → β} {b : β}
  (hwaiting : ∀ b t queue buffer, motive b t → motive b { t with queue, buffer })
  (hturn : ∀ b (turn : Turn σ), motive b turn.before → motive (after b turn) (turn.ended c).2)

include hwaiting hturn

theorem ended_induct {turn last : Turn σ} {later : List (Turn σ)}
    (hchain : (turn :: later).IsChain (Turn.Precedes c)) (hlast : last ∈ (turn :: later).getLast?)
    (h : motive b turn.before) : motive ((turn :: later).foldl after b) (last.ended c).2 := by
  have hended := hturn b turn h
  induction later generalizing turn b with
  | nil =>
    cases hlast
    exact hended
  | cons next later ih =>
    rw [List.isChain_cons_cons] at hchain
    rw [List.getLast?_cons_cons] at hlast
    obtain ⟨outcome, hnext⟩ := Turn.ended_of_precedes hchain.1
    rw [hnext] at hended
    have hbefore := hwaiting _ _ next.before.queue next.before.buffer hended
    exact ih hchain.2 hlast hbefore (hturn _ next hbefore)

/-- What holds when a request begins, and after each turn with what that adds if it held before, holds when
the turns are over. It must not depend on what waits. -/
theorem endOf_induct (n : Nat) (h : motive b s) :
    motive ((c.turns n s).foldl after b) (c.endOf (c.turns n s) s) := by
  cases hturns : c.turns n s with
  | nil => exact hwaiting b s s.queue _ h
  | cons first later =>
    have hchain := c.isChain_turns n s
    have hfirst := before_of_head? (show first ∈ (c.turns n s).head? by rw [hturns]; rfl)
    obtain ⟨last, hlast⟩ : ∃ last, last ∈ (first :: later).getLast? :=
      ⟨_, List.getLast?_eq_getLast_of_ne_nil (List.cons_ne_nil _ _)⟩
    rw [hturns] at hchain
    rw [endOf_of_getLast? hlast]
    refine ended_induct hwaiting hturn hchain hlast ?_
    rw [hfirst]
    exact hwaiting b s s.queue _ h

end

/-- A request for nothing has no handlers, and all others are done with them after their last turns. -/
theorem runHandlers_cases (h : c.runHandlers n s = some ended) :
    (c.turns n s = [] ∧ (c.mapper.decode s.buffer c.request).1 = none ∧
      ended = (.ok .notFound, { s with buffer := (c.mapper.decode s.buffer c.request).2 })) ∨
    ∃ first later, c.turns n s = first :: later ∧
      (c.mapper.decode s.buffer c.request).1 = some first.handler ∧
      first.before = { s with buffer := (c.mapper.decode s.buffer c.request).2 } ∧
      ∃ last ∈ (c.turns n s).getLast?, last.next? c = none ∧ ended = last.ended c := by
  generalize hdecode : c.mapper.decode s.buffer c.request = decoded
  obtain ⟨_ | handler, buffer⟩ := decoded
  · left
    rw [runHandlers, hdecode] at h
    cases h
    rw [turns, firstTurn?, hdecode]
    exact ⟨rfl, rfl, rfl⟩
  · right
    let first : Turn σ := { handler, before := { s with buffer } }
    have hturns : c.turns n s = c.turnsFrom n first := by
      rw [turns, firstTurn?, hdecode]
    rw [c.runHandlers_eq_following s hdecode] at h
    obtain ⟨later, hlater⟩ := c.exists_turnsFrom n first
    have hlast := exists_last_of_following first h
    rw [← hturns] at hlast hlater
    exact ⟨first, later, hlater, rfl, rfl, hlast⟩

/-- A request that gives a result is done with its handlers, and none of them panicked. -/
theorem exists_runHandlers_of_process (h : c.process n s = some (result, t)) :
    ∃ u, c.runHandlers n s = some (result, u) ∧ isPanicked result = false ∧ t = c.finish u := by
  obtain ⟨⟨result', u⟩, hrun, hconclude⟩ := Option.bind_eq_some_iff.1 h
  obtain ⟨hpanicked, rfl, ht⟩ := c.conclude_eq_some_iff.1 hconclude
  exact ⟨u, hrun, hpanicked, ht⟩

/-- A request for nothing is committed, and all others end with their last turns. -/
theorem process_cases (h : c.process n s = some (result, t)) :
    (c.turns n s = [] ∧ (c.mapper.decode s.buffer c.request).1 = none ∧ result = .ok .notFound ∧
      t = c.finish { s with buffer := (c.mapper.decode s.buffer c.request).2 }) ∨
    ∃ first later, c.turns n s = first :: later ∧
      (c.mapper.decode s.buffer c.request).1 = some first.handler ∧
      first.before = { s with buffer := (c.mapper.decode s.buffer c.request).2 } ∧
      ∃ last ∈ (c.turns n s).getLast?, last.next? c = none ∧ result = (last.ended c).1 ∧
        t = c.finish (last.ended c).2 := by
  obtain ⟨u, hrun, -, rfl⟩ := exists_runHandlers_of_process h
  refine (runHandlers_cases hrun).imp ?_ ?_
  · rintro ⟨hturns, hnone, hended⟩
    cases hended
    exact ⟨hturns, hnone, rfl, rfl⟩
  · rintro ⟨first, later, hturns, hfirst, hbefore, last, hlast, hnext, hended⟩
    refine ⟨first, later, hturns, hfirst, hbefore, last, hlast, hnext, ?_⟩
    rw [← hended]
    exact ⟨rfl, rfl⟩

/-- The handlers of a request are done when its turns are over. -/
theorem eq_endOf_of_runHandlers (h : c.runHandlers n s = some ended) :
    ended.2 = c.endOf (c.turns n s) s := by
  rcases runHandlers_cases h with ⟨hturns, -, rfl⟩ | ⟨_, _, -, -, -, last, hlast, -, rfl⟩
  · rw [hturns]
    rfl
  · rw [endOf_of_getLast? hlast]

/-- Then it is committed. -/
theorem eq_finish_of_process (h : c.process n s = some (result, t)) :
    t = c.finish (c.endOf (c.turns n s) s) := by
  obtain ⟨u, hrun, -, rfl⟩ := exists_runHandlers_of_process h
  rw [← eq_endOf_of_runHandlers hrun]

/-- What happens in a request happens in its turns, and at last it is committed. -/
theorem trace_of_process (h : c.process n s = some (result, t)) :
    t.trace = s.trace ++ (c.turns n s).flatMap (·.events c) ++ [.committed] := by
  have hfinish (u : CycleState σ) : (c.finish u).trace = u.trace ++ [.committed] := by
    rw [finish, CycleState.record, trace_commit]
  rcases process_cases h with ⟨hturns, -, -, rfl⟩ | ⟨first, later, hturns, -, hfirst, last, hlast, -, -, rfl⟩
  · rw [hturns, hfinish, List.flatMap_nil, List.append_nil]
  · have hchain := c.isChain_turns n s
    rw [hturns] at hchain hlast
    obtain ⟨htrace, -⟩ := leaves_of_isChain hchain hlast
    rw [hfinish, Turn.ended, trace_settle, htrace, hfirst, hturns]

end Cycle

end StatefulPages
