import Mathlib.Data.Int.Order.Basic
import StatefulPages.Proofs.Routing.MountedPages
import StatefulPages.Proofs.Routing.Precedence

/-!
# Mappers in the order they were added

Several mappers act as one, and it may be one of several itself. Here it is said by the order in which
mappers were added which of them reads a request and which of them writes a handler. What it says of
reading supposes that none of them takes a response out of the buffer.

* `Mapper.IsReader`: the mapper that reads a request, and its place among those added;
* `Mapper.IsWriter`: the mapper that writes a handler, and its place among those added;
* `Mapper.exists_isReader_iff`: the reader is the one that has precedence, the newest first;
* `Mapper.compound_added`: what several mappers read, score and write;
* `Site.mapper_eq_ofAdded`: the mappers of a site.
-/

namespace StatefulPages

/-- The pages of users at a path that says nothing of their parameters. -/
def Mount.atUsers : Mount where
  segments := [.literal "users"]
  pageClass := "User"
  ne_nil := by decide
  isPart := by decide

namespace Mapper

variable {σ : Type} {added : List (Mapper σ)} {m x : Mapper σ} {b : Buffer} {r : Request}
  {pages : Pages} {h : Handler} {i j : Nat}

/-! ## Places -/

/-- Several mappers that were added one after the other, as one. -/
def ofAdded [LE σ] [DecidableLE σ] [Max σ] [OfNat σ 0] (added : List (Mapper σ)) : Mapper σ :=
  compound (added.foldl add [])

/-- Of mappers that were added one after the other, the newest comes first. -/
theorem foldl_add (added : List (Mapper σ)) : added.foldl add [] = added.reverse := by
  show added.foldl (fun ms m => m :: ms) [] = _
  rw [List.foldl_flip_cons_eq_append', List.append_nil]

theorem mem_foldl_add : m ∈ added.foldl add [] ↔ m ∈ added := by
  rw [foldl_add, List.mem_reverse]

/-- With the newest first, those added later stand in front of a mapper and the others behind it. -/
theorem exists_place_iff {p q : Mapper σ → Prop} :
    (∃ i : Nat, added[i]? = some m ∧ (∀ j x, i < j → added[j]? = some x → p x) ∧
        ∀ j x, j < i → added[j]? = some x → q x) ↔
      ∃ front back, added.reverse = front ++ m :: back ∧ (∀ x ∈ front, p x) ∧ ∀ x ∈ back, q x := by
  constructor
  · rintro ⟨i, hplace, hlater, hearlier⟩
    obtain ⟨hi, rfl⟩ := List.getElem?_eq_some_iff.1 hplace
    refine ⟨(added.drop (i + 1)).reverse, (added.take i).reverse, ?_, fun x hx => ?_, fun x hx => ?_⟩
    · rw [← List.singleton_append, ← List.append_assoc, ← List.reverse_cons,
        List.getElem_cons_drop, ← List.reverse_append, List.take_append_drop]
    · obtain ⟨k, hk⟩ := List.mem_iff_getElem?.1 (List.mem_reverse.1 hx)
      rw [List.getElem?_drop] at hk
      exact hlater _ x (by omega) hk
    · obtain ⟨k, hk⟩ := List.mem_iff_getElem?.1 (List.mem_reverse.1 hx)
      rw [List.getElem?_take] at hk
      split at hk
      · rename_i hlt
        exact hearlier k x hlt hk
      · cases hk
  · rintro ⟨front, back, hsplit, hfront, hback⟩
    have hadded : added = back.reverse ++ m :: front.reverse := by
      rw [← List.reverse_reverse added, hsplit, List.reverse_append, List.reverse_cons,
        List.append_assoc, List.singleton_append]
    have hlength : back.reverse.length = back.length := List.length_reverse
    refine ⟨back.length, ?_, fun j x hj hx => ?_, fun j x hj hx => ?_⟩
    · rw [hadded, ← hlength, List.getElem?_append_right (Nat.le_refl _), Nat.sub_self,
        List.getElem?_cons_zero]
    · rw [hadded, List.getElem?_append_right (by omega),
        show j - back.reverse.length = j - back.length - 1 + 1 by omega,
        List.getElem?_cons_succ] at hx
      exact hfront x (List.mem_reverse.1 (List.mem_of_getElem? hx))
    · rw [hadded, List.getElem?_append_left (by omega)] at hx
      exact hback x (List.mem_reverse.1 (List.mem_of_getElem? hx))

/-! ## Reading -/

/-- Indicates the mapper that reads a request, and its place among those added: each other one that
can read it has a lower score, or the same one and was added before. -/
structure IsReader [LT σ] (added : List (Mapper σ)) (b : Buffer) (r : Request) (i : Nat)
    (m : Mapper σ) : Prop where
  place : added[i]? = some m
  reads : m.Reads b r
  others : ∀ j x, j ≠ i → added[j]? = some x → x.Reads b r →
    x.score b r < m.score b r ∨ x.score b r = m.score b r ∧ j < i

section Reading

variable [LinearOrder σ]

/-- There are no two places of a reader. -/
theorem IsReader.unique (hm : IsReader added b r i m) (hx : IsReader added b r j x) : i = j := by
  by_contra hne
  rcases hm.others j x (Ne.symm hne) hx.place hx.reads with hlower | ⟨hscore, hbefore⟩
  · rcases hx.others i m hne hm.place hm.reads with hlower' | ⟨hscore', -⟩
    · exact lt_asymm hlower hlower'
    · exact ne_of_gt hlower hscore'
  · rcases hx.others i m hne hm.place hm.reads with hlower' | ⟨-, hbefore'⟩
    · exact ne_of_gt hlower' hscore
    · exact Nat.lt_asymm hbefore hbefore'

/-- The reader has a higher score than those added later, and no lower one than those before. -/
theorem isReader_iff :
    IsReader added b r i m ↔ m.Reads b r ∧ added[i]? = some m ∧
      (∀ j x, i < j → added[j]? = some x → x.Reads b r → x.score b r < m.score b r) ∧
      ∀ j x, j < i → added[j]? = some x → x.Reads b r → x.score b r ≤ m.score b r := by
  constructor
  · intro h
    refine ⟨h.reads, h.place, fun j x hj hx hreads => ?_, fun j x hj hx hreads => ?_⟩
    · exact (h.others j x (Nat.ne_of_gt hj) hx hreads).resolve_right fun hsame =>
        Nat.lt_asymm hj hsame.2
    · exact (h.others j x (Nat.ne_of_lt hj) hx hreads).elim le_of_lt fun hsame => le_of_eq hsame.1
  · rintro ⟨hreads, hplace, hlater, hearlier⟩
    refine ⟨hplace, hreads, fun j x hj hx hxreads => ?_⟩
    rcases Nat.lt_or_gt_of_ne hj with hj | hj
    · exact (lt_or_eq_of_le (hearlier j x hj hx hxreads)).imp_right fun hsame => ⟨hsame, hj⟩
    · exact .inl (hlater j x hj hx hxreads)

/-- The reader is the mapper that has precedence, the newest first. -/
theorem exists_isReader_iff :
    (∃ i, IsReader added b r i m) ↔ IsBest (added.foldl add []) b r m := by
  rw [foldl_add, IsBest, ← exists_place_iff, ← exists_and_left]
  exact exists_congr fun i => isReader_iff

theorem exists_isReader_of_reads (h : ∃ m ∈ added, m.Reads b r) :
    ∃ i m, IsReader added b r i m := by
  obtain ⟨m, hm, hreads⟩ := h
  obtain ⟨best, hbest⟩ := exists_isBest ⟨m, mem_foldl_add.2 hm, hreads⟩
  obtain ⟨i, hi⟩ := exists_isReader_iff.2 hbest
  exact ⟨i, best, hi⟩

variable [OfNat σ 0]

/-- Several mappers read a request as the reader does, if those that cannot read it leave the buffer
alone. -/
theorem IsReader.decode_ofAdded (hm : IsReader added b r i m)
    (hkeep : ∀ x ∈ added, (x.decode b r).2 = b) : (ofAdded added).decode b r = m.decode b r :=
  decode_of_isBest (exists_isReader_iff.1 ⟨i, hm⟩) fun x hx _ => hkeep x (mem_foldl_add.1 hx)

/-- What is read is what the reader reads. -/
theorem decode_ofAdded_iff (hkeep : ∀ x ∈ added, (x.decode b r).2 = b) :
    ((ofAdded added).decode b r).1 = some h ↔
      ∃ i m, IsReader added b r i m ∧ (m.decode b r).1 = some h := by
  constructor
  · intro hread
    obtain ⟨x, hx, hreads⟩ := exists_reads_of_decode
      (fun x hx _ => hkeep x (mem_foldl_add.1 hx)) hread
    obtain ⟨i, m, hm⟩ := exists_isReader_of_reads ⟨x, mem_foldl_add.1 hx, hreads⟩
    exact ⟨i, m, hm, hm.decode_ofAdded hkeep ▸ hread⟩
  · rintro ⟨i, m, hm, hread⟩
    rw [hm.decode_ofAdded hkeep, hread]

theorem reads_ofAdded_iff (hkeep : ∀ x ∈ added, (x.decode b r).2 = b) :
    (ofAdded added).Reads b r ↔ ∃ m ∈ added, m.Reads b r := by
  constructor
  · intro hreads
    obtain ⟨h, hread⟩ := Option.isSome_iff_exists.1 hreads
    obtain ⟨i, m, hm, -⟩ := (decode_ofAdded_iff hkeep).1 hread
    exact ⟨m, List.mem_of_getElem? hm.place, hm.reads⟩
  · intro hreads
    obtain ⟨i, m, hm⟩ := exists_isReader_of_reads hreads
    rw [Reads, hm.decode_ofAdded hkeep]
    exact hm.reads

/-- The whole leaves the buffer alone as each of them does, so it may be one of several itself. -/
theorem keep_ofAdded (hkeep : ∀ x ∈ added, (x.decode b r).2 = b) :
    ((ofAdded added).decode b r).2 = b := by
  by_cases hreads : ∃ m ∈ added, m.Reads b r
  · obtain ⟨i, m, hm⟩ := exists_isReader_of_reads hreads
    rw [hm.decode_ofAdded hkeep]
    exact hkeep m (List.mem_of_getElem? hm.place)
  · rw [ofAdded, decode_of_not_reads (fun x hx hx' => hreads ⟨x, mem_foldl_add.1 hx, hx'⟩)
      fun x hx _ => hkeep x (mem_foldl_add.1 hx)]

/-! ## Scores -/

theorem score_ofAdded (hne : added ≠ []) :
    (∃ m ∈ added, m.score b r = (ofAdded added).score b r) ∧
      ∀ m ∈ added, m.score b r ≤ (ofAdded added).score b r := by
  have hne' : added.foldl add [] ≠ [] := by
    rw [foldl_add]
    exact List.reverse_ne_nil_iff.2 hne
  obtain ⟨⟨m, hm, hscore⟩, hle⟩ := score_compound (b := b) (r := r) hne'
  exact ⟨⟨m, mem_foldl_add.1 hm, hscore⟩, fun x hx => hle x (mem_foldl_add.2 hx)⟩

end Reading

/-! ## Writing -/

/-- Indicates the mapper that writes a handler, and its place among those added: none that was added
later can write it. -/
structure IsWriter (added : List (Mapper σ)) (pages : Pages) (h : Handler) (i : Nat)
    (m : Mapper σ) : Prop where
  place : added[i]? = some m
  writes : (m.encode pages h).isSome = true
  later : ∀ j x, i < j → added[j]? = some x → x.encode pages h = none

/-- Several mappers write a handler as the writer does. -/
theorem encode_ofAdded_iff [LE σ] [DecidableLE σ] [Max σ] [OfNat σ 0] {url : Url} :
    (ofAdded added).encode pages h = some url ↔
      ∃ i m, IsWriter added pages h i m ∧ m.encode pages h = some url := by
  show (added.foldl add []).findSome? (·.encode pages h) = _ ↔ _
  have hplace (m : Mapper σ) :=
    @exists_place_iff σ added m (·.encode pages h = none) fun _ => True
  rw [foldl_add, List.findSome?_eq_some_iff]
  constructor
  · rintro ⟨front, m, back, hsplit, hwrite, hnone⟩
    obtain ⟨i, hi, hlater, -⟩ := (hplace m).2 ⟨front, back, hsplit, hnone, fun _ _ => trivial⟩
    exact ⟨i, m, ⟨hi, Option.isSome_of_eq_some hwrite, hlater⟩, hwrite⟩
  · rintro ⟨i, m, hm, hwrite⟩
    obtain ⟨front, back, hsplit, hnone, -⟩ :=
      (hplace m).1 ⟨i, hm.place, hm.later, fun _ _ _ _ => trivial⟩
    exact ⟨front, m, back, hsplit, hwrite, hnone⟩

/-- The mapper that writes a handler need not be the one that reads the request: of two mounts of a
page class the one that fits best reads it, and the one added last writes the handler. -/
theorem not_reader_eq_writer :
    ¬ ∀ (added : List Mapper) (b : Buffer) (r : Request) (pages : Pages) (h : Handler) (i j : Nat)
      (m x : Mapper), (∀ y ∈ added, (y.decode b r).2 = b) → IsReader added b r i m →
        (m.decode b r).1 = some h → IsWriter added pages h j x → i = j := by
  intro hsame
  let c : Context := { home := "Home" }
  let m := (Mount.ofUsers .standard).mapper c
  let x := Mount.atUsers.mapper c
  let r := Request.ofText "/users/42"
  let h : Handler := .bookmarkable "User" { named := [⟨"id", "42"⟩] }
  have hkeep : ∀ y ∈ [m, x], (y.decode [] r).2 = [] := by
    intro y hy
    rw [List.mem_pair] at hy
    rcases hy with rfl | rfl <;> rfl
  have hread : (m.decode [] r).1 = some h := by decide +kernel
  have hreader : IsReader [m, x] [] r 0 m := by
    refine ⟨rfl, Option.isSome_of_eq_some hread, fun j y hj hy _ => .inl ?_⟩
    match j with
    | 0 => exact absurd rfl hj
    | 1 =>
      cases hy
      decide +kernel
  have hwriter : IsWriter [m, x] .empty h 1 x := by
    refine ⟨rfl, by decide +kernel, fun j y hj hy => ?_⟩
    rw [List.getElem?_eq_none (show [m, x].length ≤ j from hj)] at hy
    cases hy
  exact absurd (hsame [m, x] [] r .empty h 0 1 m x hkeep hreader hread hwriter) (by decide)

/-! ## Several mappers as one -/

/-- Mappers that leave the buffer alone read a request if one of them does, and then as its reader;
the whole leaves the buffer alone too. They score as the one with the highest score, and write a
handler as its writer, which need not be the reader. -/
theorem compound_added [LinearOrder σ] [OfNat σ 0] (added : List (Mapper σ)) :
    (∀ b r, (∀ m ∈ added, (m.decode b r).2 = b) →
      ((ofAdded added).Reads b r ↔ ∃ m ∈ added, m.Reads b r) ∧
      (∀ h, ((ofAdded added).decode b r).1 = some h ↔
        ∃ i m, IsReader added b r i m ∧ (m.decode b r).1 = some h) ∧
      ((ofAdded added).decode b r).2 = b) ∧
    (∀ b r i j m x, IsReader added b r i m → IsReader added b r j x → i = j) ∧
    (∀ b r, (added = [] → (ofAdded added).score b r = 0) ∧
      (added ≠ [] → (∃ m ∈ added, m.score b r = (ofAdded added).score b r) ∧
        ∀ m ∈ added, m.score b r ≤ (ofAdded added).score b r)) ∧
    (∀ pages h url, (ofAdded added).encode pages h = some url ↔
      ∃ i m, IsWriter added pages h i m ∧ m.encode pages h = some url) ∧
    ¬ ∀ (ms : List Mapper) (b : Buffer) (r : Request) (pages : Pages) (h : Handler) (i j : Nat)
      (m x : Mapper), (∀ y ∈ ms, (y.decode b r).2 = b) → IsReader ms b r i m →
        (m.decode b r).1 = some h → IsWriter ms pages h j x → i = j := by
  refine ⟨fun b r hkeep => ?_, fun b r i j m x => IsReader.unique, fun b r => ?_,
    fun pages h url => encode_ofAdded_iff, not_reader_eq_writer⟩
  · exact ⟨reads_ofAdded_iff hkeep, fun h => decode_ofAdded_iff hkeep, keep_ofAdded hkeep⟩
  · refine ⟨fun hnil => ?_, score_ofAdded⟩
    subst hnil
    exact score_compound_nil

/-- A mapper that treats all requests alike, and all handlers. -/
def constant (score : Int) (read : Option Handler) (url : Option Url) : Mapper Int where
  score _ _ := score
  decode b _ := (read, b)
  encode _ _ := url

/-- Two mappers, the first of which reads with the lower score. -/
def innerPair : List (Mapper Int) :=
  [constant (-5) (some (.bookmarkable "Inner" {})) none, constant (-2) none none]

/-- Three mappers, the second of which is two others. The last one has the highest score and cannot
read anything. -/
def outerThree : List (Mapper Int) :=
  [constant (-2) (some (.bookmarkable "Outer" {})) (some (Url.parse "/first")), ofAdded innerPair,
    constant 7 none (some (Url.parse "/last"))]

/-- The score of mappers that are one of several is the highest one, also if it is below 0. With the
same score they have precedence over a mapper that was added before them. -/
theorem compound_added_of_nested :
    (∀ m ∈ innerPair, (m.decode [] (Request.ofText "/")).2 = []) ∧
    (∀ m ∈ outerThree, (m.decode [] (Request.ofText "/")).2 = []) ∧
    (ofAdded innerPair).score [] (Request.ofText "/") = -2 ∧
    ((ofAdded outerThree).decode [] (Request.ofText "/")).1 = some (.bookmarkable "Inner" {}) ∧
    (ofAdded outerThree).score [] (Request.ofText "/") = 7 ∧
    (ofAdded outerThree).encode .empty (.bookmarkable "Inner" {}) = some (Url.parse "/last") := by
  have hinner : ∀ m ∈ innerPair, (m.decode [] (Request.ofText "/")).2 = [] := by
    intro m hm
    rw [innerPair, List.mem_pair] at hm
    rcases hm with rfl | rfl <;> rfl
  obtain ⟨-, hread, hkeep⟩ := (compound_added innerPair).1 [] (Request.ofText "/") hinner
  have hinner_read : ((ofAdded innerPair).decode [] (Request.ofText "/")).1 =
      some (.bookmarkable "Inner" {}) := by
    refine (hread _).2 ⟨0, _, ⟨rfl, rfl, fun j x hj hx hreads => ?_⟩, rfl⟩
    match j with
    | 0 => exact absurd rfl hj
    | 1 =>
      cases hx
      exact Bool.noConfusion hreads
  have houter : ∀ m ∈ outerThree, (m.decode [] (Request.ofText "/")).2 = [] := by
    intro m hm
    rw [outerThree, List.mem_cons, List.mem_pair] at hm
    rcases hm with rfl | rfl | rfl
    · rfl
    · exact hkeep
    · rfl
  obtain ⟨hreading, -, -, hwrite, -⟩ := compound_added outerThree
  refine ⟨hinner, houter, rfl, ?_, rfl, ?_⟩
  · refine ((hreading [] _ houter).2.1 _).2 ⟨1, _, ⟨rfl, ?_, fun j x hj hx hreads => ?_⟩, hinner_read⟩
    · exact Option.isSome_of_eq_some hinner_read
    match j with
    | 0 =>
      -- the highest score of the pair is the same, although what reads has a lower one
      cases hx
      exact .inr ⟨rfl, Nat.zero_lt_one⟩
    | 1 => exact absurd rfl hj
    | 2 =>
      cases hx
      exact Bool.noConfusion hreads
  · refine (hwrite _ _ _).2 ⟨2, _, ⟨rfl, rfl, fun j x hj hx => ?_⟩, rfl⟩
    rw [List.getElem?_eq_none (show outerThree.length ≤ j from hj)] at hx
    cases hx

end Mapper

/-! ## Sites -/

/-- The mappers of a site are added in this order, its own from the home page on and then the mounts. -/
theorem Site.mapper_eq_ofAdded (s : Site) :
    s.mapper = Mapper.ofAdded ([.homePage s.context, .pageInstance s.context,
      .bookmarkable s.context, .resource s.context, .buffered] ++
        s.mounts.reverse.map (·.mapper s.context)) := by
  rw [Mapper.ofAdded, Mapper.foldl_add, List.reverse_append, ← List.map_reverse,
    List.reverse_reverse]
  rfl

end StatefulPages
