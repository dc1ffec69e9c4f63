import Mathlib.Data.List.Infix
import StatefulPages.Proofs.Routing.Precedence

/-!
# Buffered responses are replayed once

Whatever a site is asked, a request is answered with the response that was buffered last for the text
of its URL, if one was and it has not been replayed yet. All else is answered as if nothing had been
buffered at all.

* `Site.waiting`: the response that should wait for a text after some calls;
* `Site.decode_of_waiting`, `Site.unmoved`: what a request does with the buffer;
* `Site.due_of_call`: what one call answers and leaves in the buffer;
* `Site.replays_once`: what any sequence of calls answers and leaves in the buffer.
-/

namespace StatefulPages

/-! ## The buffer -/

namespace Buffer

theorem response?_drop (b : Buffer) (url other : Url) :
    (b.drop url).response? other = if url.text = other.text then none else b.response? other := by
  rw [response?, response?, drop]
  induction b with
  | nil => simp
  | cons entry b ih =>
    obtain ⟨text, response⟩ := entry
    by_cases htext : text = url.text
    · rw [List.filter_cons_of_neg (by simpa using htext), ih, List.lookup_cons, htext]
      by_cases hother : url.text = other.text
      · rw [if_pos hother, if_pos hother]
      · rw [if_neg hother, if_neg hother, beq_false_of_ne (Ne.symm hother)]
    · rw [List.filter_cons_of_pos (by simpa using htext), List.lookup_cons, List.lookup_cons, ih]
      by_cases hother : other.text = text
      · simp [hother, Ne.symm htext]
      · rw [beq_false_of_ne hother]

theorem response?_store (b : Buffer) (url other : Url) (response : BufferedResponse) :
    (b.store url response).response? other =
      if url.text = other.text then some response else b.response? other := by
  have hdrop := b.response?_drop url other
  rw [response?, store, List.lookup_cons]
  by_cases htext : url.text = other.text
  · rw [if_pos htext, htext, beq_self_eq_true]
  · rw [if_neg htext] at hdrop ⊢
    rw [beq_false_of_ne (Ne.symm htext)]
    exact hdrop

end Buffer

/-! ## Mappers -/

namespace Mapper

variable {ms : List Mapper} {m : Mapper} {b : Buffer} {r : Request}

/-- Indicates a mapper that treats a request as it does when nothing is buffered, and leaves the
buffer as it is. -/
structure Unmoved (m : Mapper) (b : Buffer) (r : Request) : Prop where
  score : m.score b r = m.score [] r
  decode : m.decode b r = ((m.decode [] r).1, b)
  empty : (m.decode [] r).2 = []

theorem unmoved_ofRequests (score : Request → Nat) (decode : Request → Option Handler)
    (encode : Pages → Handler → Option Url) : (ofRequests score decode encode).Unmoved b r :=
  ⟨rfl, rfl, rfl⟩

theorem unmoved_buffered (h : b.response? r.url = none) : buffered.Unmoved b r where
  score := by
    simp only [buffered, h]
    rfl
  decode := by
    simp only [buffered, h]
    rfl
  empty := rfl

theorem Unmoved.decodeFirst (h : ∀ m ∈ ms, m.Unmoved b r) :
    decodeFirst ms b r = ((decodeFirst ms [] r).1, b) ∧ (decodeFirst ms [] r).2 = [] := by
  induction ms with
  | nil => exact ⟨rfl, rfl⟩
  | cons m ms ih =>
    obtain ⟨-, hdecode, hempty⟩ := h m List.mem_cons_self
    rw [Mapper.decodeFirst, hdecode, Mapper.decodeFirst]
    cases hread : m.decode [] r with
    | mk read buffer =>
      rw [hread] at hempty
      rw [show buffer = [] from hempty]
      cases read with
      | none => exact ih fun x hx => h x (List.mem_cons_of_mem m hx)
      | some h => exact ⟨rfl, rfl⟩

theorem Unmoved.compound (h : ∀ m ∈ ms, m.Unmoved b r) : (compound ms).Unmoved b r := by
  have hscores : (ms.map (·.score b r)) = ms.map (·.score [] r) :=
    List.map_congr_left fun m hm => (h m hm).score
  have hpairs : (ms.map fun m => (m.score b r, m)) = ms.map fun m => (m.score [] r, m) :=
    List.map_congr_left fun m hm => congrArg (·, m) (h m hm).score
  have hranked : ranked ms b r = ranked ms [] r := by rw [ranked, hpairs, ranked]
  have hunmoved : ∀ m ∈ ranked ms [] r, m.Unmoved b r := fun m hm =>
    h m ((ranked_perm ms [] r).subset hm)
  obtain ⟨hdecode, hempty⟩ := Unmoved.decodeFirst hunmoved
  refine ⟨congrArg (·.max?.getD 0) hscores, ?_, hempty⟩
  show Mapper.decodeFirst (ranked ms b r) b r = _
  rw [hranked]
  exact hdecode

/-- Several mappers score as high as the one of them with the highest score. -/
theorem score_compound_le_iff {n : Nat} :
    (compound ms).score b r ≤ n ↔ ∀ m ∈ ms, m.score b r ≤ n := by
  by_cases hne : ms = []
  · subst hne
    exact iff_of_true (Nat.zero_le n) fun m hm => absurd hm List.not_mem_nil
  · obtain ⟨⟨m, hm, heq⟩, hle⟩ := score_compound (b := b) (r := r) hne
    constructor
    · intro h x hx
      exact Nat.le_trans (hle x hx) h
    · intro h
      exact heq ▸ h m hm

end Mapper

/-! ## Sites -/

namespace Site

variable {s : Site} {b : Buffer} {r : Request}

theorem unmoved (hnone : b.response? r.url = none) : s.mapper.Unmoved b r := by
  have hmappers : ∀ m ∈ s.mappers, m.Unmoved b r := by
    intro m hm
    rcases mem_mappers.1 hm with ⟨mount, -, rfl⟩ | hm
    · exact Mapper.unmoved_ofRequests ..
    · rcases mem_framework.1 hm with rfl | rfl | rfl | rfl | rfl
      · exact Mapper.unmoved_buffered hnone
      all_goals exact Mapper.unmoved_ofRequests ..
  exact Mapper.Unmoved.compound hmappers

section

variable {response : BufferedResponse}

/-- The response that waits for a URL has precedence over all mounts. -/
theorem isBest_buffered (hshort : ∀ m ∈ s.mounts, m.segments.length < Mapper.maxScore)
    (hresponse : b.response? r.url = some response) :
    Mapper.IsBest s.mappers b r .buffered := by
  have hwaiting : (b.response? r.url).isSome = true := Option.isSome_iff_exists.2 ⟨_, hresponse⟩
  have hscore := score_buffered hwaiting
  apply isBest_of_maxScore hshort hscore
  refine ⟨reads_buffered_iff.2 hwaiting, [], _, rfl, fun m hm => absurd hm List.not_mem_nil, ?_⟩
  intro m hm _
  rw [hscore]
  exact score_framework_le (List.mem_cons_of_mem _ hm) b r

theorem decode_of_waiting (hshort : ∀ m ∈ s.mounts, m.segments.length < Mapper.maxScore)
    (hresponse : b.response? r.url = some response) :
    s.mapper.decode b r = (some (.buffered r.url response), b.drop r.url) := by
  rw [decode_of_isBest (isBest_buffered hshort hresponse)]
  simp only [Mapper.buffered, hresponse]

theorem score_of_waiting (hshort : ∀ m ∈ s.mounts, m.segments.length < Mapper.maxScore)
    (hresponse : b.response? r.url = some response) :
    s.mapper.score b r = Mapper.maxScore := by
  apply Nat.le_antisymm
  · refine Mapper.score_compound_le_iff.2 fun m hm => ?_
    rcases mem_mappers.1 hm with ⟨mount, hmount, rfl⟩ | hm
    · exact Nat.le_trans (score_mount_le ..) (Nat.le_of_lt (hshort mount hmount))
    · exact score_framework_le hm b r
  · rw [← score_buffered (Option.isSome_iff_exists.2 ⟨_, hresponse⟩)]
    exact Mapper.score_compound_le_iff.1 (Nat.le_refl _) _ (isBest_buffered hshort hresponse).mem

end

/-! ## Calls -/

/-- What a site is asked. -/
inductive Call where
  /-- Buffers a response for a URL. -/
  | keep (url : Url) (response : BufferedResponse)
  | read (r : Request)
  | score (r : Request)
  | write (pages : Pages) (h : Handler)

/-- What a site answers. -/
inductive Answer where
  | kept
  | handler (h : Option Handler)
  | score (score : Nat)
  | url (url : Option Url)

/-- What a site answers, and the buffer afterwards. -/
def call (s : Site) (b : Buffer) : Call → Answer × Buffer
  | .keep url response => (.kept, b.store url response)
  | .read r => (.handler (s.mapper.decode b r).1, (s.mapper.decode b r).2)
  | .score r => (.score (s.mapper.score b r), b)
  | .write pages h => (.url (s.mapper.encode pages h), b)

/-- The answers to several calls, in their order. -/
def answers (s : Site) (b : Buffer) : List Call → List Answer
  | [] => []
  | k :: calls => (s.call b k).1 :: s.answers (s.call b k).2 calls

/-- The buffer after several calls. -/
def run (s : Site) (b : Buffer) : List Call → Buffer
  | [] => b
  | k :: calls => s.run (s.call b k).2 calls

/-- The response that waits for a text after a call. -/
def Call.next (text : String) (waiting : Option BufferedResponse) : Call → Option BufferedResponse
  | .keep url response => if url.text = text then some response else waiting
  | .read r => if r.url.text = text then none else waiting
  | .score _ => waiting
  | .write _ _ => waiting

/-- The response that waits for a text after several calls: the one that was buffered last for a URL
with this text, unless the text has been read since. -/
def waiting (calls : List Call) (text : String) : Option BufferedResponse :=
  calls.foldl (Call.next text) none

/-- The answer that is due to a call after the calls `past`: a response that waits is replayed, and has
the highest score; for all else it makes no difference what was buffered. -/
def due (s : Site) (past : List Call) : Call → Answer
  | .keep _ _ => .kept
  | .read r =>
    match waiting past r.url.text with
    | some response => .handler (some (.buffered r.url response))
    | none => .handler (s.mapper.decode [] r).1
  | .score r =>
    if (waiting past r.url.text).isSome then .score Mapper.maxScore
    else .score (s.mapper.score [] r)
  | .write pages h => .url (s.mapper.encode pages h)

theorem due_read_of_some {past : List Call} {response : BufferedResponse}
    (h : waiting past r.url.text = some response) :
    s.due past (.read r) = .handler (some (.buffered r.url response)) := by
  rw [due, h]

theorem due_read_of_none {past : List Call} (h : waiting past r.url.text = none) :
    s.due past (.read r) = .handler (s.mapper.decode [] r).1 := by
  rw [due, h]

theorem due_score_of_some {past : List Call} {response : BufferedResponse}
    (h : waiting past r.url.text = some response) :
    s.due past (.score r) = .score Mapper.maxScore := by
  rw [due, h]
  rfl

theorem due_score_of_none {past : List Call} (h : waiting past r.url.text = none) :
    s.due past (.score r) = .score (s.mapper.score [] r) := by
  rw [due, h]
  rfl

/-- The buffer holds just the responses that wait after the calls `past`. -/
def Holds (b : Buffer) (past : List Call) : Prop :=
  ∀ url, b.response? url = waiting past url.text

theorem waiting_concat (past : List Call) (k : Call) (text : String) :
    waiting (past ++ [k]) text = k.next text (waiting past text) := by
  rw [waiting, List.foldl_append]
  rfl

theorem due_of_call (hshort : ∀ m ∈ s.mounts, m.segments.length < Mapper.maxScore)
    {past : List Call} (h : Holds b past) (k : Call) :
    (s.call b k).1 = s.due past k ∧ Holds (s.call b k).2 (past ++ [k]) := by
  cases k with
  | keep url response =>
    refine ⟨rfl, fun other => ?_⟩
    rw [waiting_concat, ← h other]
    exact b.response?_store url other response
  | read r =>
    have hwaiting := h r.url
    cases hresponse : b.response? r.url with
    | some response =>
      rw [call, decode_of_waiting hshort hresponse, due_read_of_some (hwaiting.symm.trans hresponse)]
      refine ⟨rfl, fun other => ?_⟩
      rw [waiting_concat, ← h other]
      exact b.response?_drop r.url other
    | none =>
      rw [call, (unmoved hresponse).decode, due_read_of_none (hwaiting.symm.trans hresponse)]
      refine ⟨rfl, fun other => ?_⟩
      rw [waiting_concat, Call.next]
      split
      · rename_i htext
        show b.lookup other.text = none
        rw [← htext]
        exact hresponse
      · exact h other
  | score r =>
    refine ⟨?_, fun other => by rw [waiting_concat]; exact h other⟩
    have hwaiting := h r.url
    cases hresponse : b.response? r.url with
    | some response =>
      rw [call, score_of_waiting hshort hresponse,
        due_score_of_some (hwaiting.symm.trans hresponse)]
    | none =>
      rw [call, (unmoved hresponse).score, due_score_of_none (hwaiting.symm.trans hresponse)]
  | write pages handler => exact ⟨rfl, fun other => by rw [waiting_concat]; exact h other⟩

theorem due_of_calls (hshort : ∀ m ∈ s.mounts, m.segments.length < Mapper.maxScore)
    {past : List Call} (h : Holds b past) (calls : List Call) :
    s.answers b calls = List.zipWith s.due (calls.inits.map (past ++ ·)) calls ∧
      Holds (s.run b calls) (past ++ calls) := by
  induction calls generalizing b past with
  | nil =>
    rw [List.append_nil]
    exact ⟨rfl, h⟩
  | cons k calls ih =>
    obtain ⟨hanswer, hnext⟩ := due_of_call hshort h k
    obtain ⟨hanswers, hrun⟩ := ih hnext
    rw [List.append_assoc, List.singleton_append] at hrun
    refine ⟨?_, hrun⟩
    rw [answers, hanswer, hanswers, List.inits_cons, List.map_cons, List.append_nil,
      List.zipWith_cons_cons, List.map_map]
    congr 3
    funext later
    exact (List.append_cons past k later).symm

/-- From an empty buffer, every sequence of calls is given the answers that are due: a response is
replayed to the first request for the text it was buffered for, if no other one took its place, and
taken away by nothing else; all other answers are those of a site for which nothing was buffered. -/
theorem replays_once (hshort : ∀ m ∈ s.mounts, m.segments.length < Mapper.maxScore)
    (calls : List Call) :
    s.answers [] calls = List.zipWith s.due calls.inits calls ∧
      ∀ url, (s.run [] calls).response? url = waiting calls url.text := by
  have hempty : Holds [] [] := fun _ => rfl
  obtain ⟨hanswers, hrun⟩ := due_of_calls hshort hempty calls
  exact ⟨by simpa using hanswers, hrun⟩

/-- A site with the pages of users. -/
def ofUsers : Site where
  context := { home := "Home" }
  mounts := [Mount.ofUsers .standard]

/-- Responses for a user and for the root of the application, whose text is that of a single empty
segment also; the second one for the user takes the place of the first. -/
def userCalls : List Call :=
  [.keep { segments := ["users", "7"] } ⟨"text/html", [1]⟩,
    .keep { segments := [""] } ⟨"text/html", [2]⟩,
    .keep { segments := ["users", "7"] } ⟨"text/html", [3]⟩,
    .score { url := {} },
    .read { url := { segments := ["users", "8"] } },
    .read { url := { segments := ["users", "7"] } },
    .read { url := { segments := ["users", "7"] } }]

/-- The page of a user, where no response waits. -/
theorem decode_ofUsers (id : String) :
    ofUsers.mapper.decode [] { url := { segments := ["users", id] } } =
      (some (.bookmarkable "User" { named := [⟨"id", id⟩] }), []) := by
  have hbest : Mapper.IsBest ofUsers.mappers [] { url := { segments := ["users", id] } }
      ((Mount.ofUsers .standard).mapper { home := "Home" }) := by
    refine ⟨rfl, [], framework { home := "Home" }, rfl, fun _ h => absurd h List.not_mem_nil, ?_⟩
    intro x hx hreads
    rcases mem_framework.1 hx with rfl | rfl | rfl | rfl | rfl
    all_goals exact Nat.zero_le _
  rw [decode_of_isBest hbest]
  rfl

theorem replays_once_of_users :
    (∀ m ∈ ofUsers.mounts, m.segments.length < Mapper.maxScore) ∧
    ofUsers.answers [] userCalls =
      [.kept, .kept, .kept, .score Mapper.maxScore,
        .handler (some (.bookmarkable "User" { named := [⟨"id", "8"⟩] })),
        .handler (some (.buffered { segments := ["users", "7"] } ⟨"text/html", [3]⟩)),
        .handler (some (.bookmarkable "User" { named := [⟨"id", "7"⟩] }))] ∧
    (ofUsers.run [] userCalls).response? {} = some ⟨"text/html", [2]⟩ ∧
    (ofUsers.run [] userCalls).response? { segments := ["users", "7"] } = none := by
  have hshort : ∀ m ∈ ofUsers.mounts, m.segments.length < Mapper.maxScore := by decide
  obtain ⟨hanswers, hrun⟩ := replays_once hshort userCalls
  refine ⟨hshort, ?_, (hrun _).trans (by decide +kernel), (hrun _).trans (by decide +kernel)⟩
  have hroot : waiting (userCalls.take 3) (Url.text {}) = some ⟨"text/html", [2]⟩ := by
    decide +kernel
  have hother : waiting (userCalls.take 4) (Url.text { segments := ["users", "8"] }) = none := by
    decide +kernel
  have hfirst : waiting (userCalls.take 5) (Url.text { segments := ["users", "7"] }) =
      some ⟨"text/html", [3]⟩ := by
    decide +kernel
  have hsecond : waiting (userCalls.take 6) (Url.text { segments := ["users", "7"] }) = none := by
    decide +kernel
  rw [hanswers]
  show [.kept, .kept, .kept, ofUsers.due (userCalls.take 3) (.score { url := {} }),
    ofUsers.due (userCalls.take 4) (.read { url := { segments := ["users", "8"] } }),
    ofUsers.due (userCalls.take 5) (.read { url := { segments := ["users", "7"] } }),
    ofUsers.due (userCalls.take 6) (.read { url := { segments := ["users", "7"] } })] = _
  rw [due_score_of_some (r := { url := {} }) hroot,
    due_read_of_none (r := { url := { segments := ["users", "8"] } }) hother,
    due_read_of_some (r := { url := { segments := ["users", "7"] } }) hfirst,
    due_read_of_none (r := { url := { segments := ["users", "7"] } }) hsecond,
    decode_ofUsers, decode_ofUsers]

end Site

end StatefulPages
