import Mathlib.Logic.Basic
import StatefulPages.Routing.PageLink

/-!
# The parameter in front

The first query parameter of a page's URL is the place of an address. In a URL without one the first
parameter of the page that does not read as an address is brought there, so that a parameter is taken
for an address only if all of them would be.

* `PlainFirst`: how the parameters are ordered then;
* `Url.plainFirst_query`: they are ordered so;
* `Url.ofUrl?_plainFirst_eq_none_iff`: when no address is in front;
* `Url.withPage_plainFirst`: the URL of a page, for every encoder.
-/

namespace StatefulPages

/-! ## The first parameter that is no address -/

/-- Says that the second list is the first one with the first parameter that does not read as an
address brought to the front. All others keep their order, and if all read as addresses they stay as
they are. -/
inductive PlainFirst : List NamedValue → List NamedValue → Prop
  | kept {query : List NamedValue} (hall : ∀ v ∈ query, v.isAddress = true) : PlainFirst query query
  | brought {front : List NamedValue} {v : NamedValue} (back : List NamedValue)
      (hfront : ∀ w ∈ front, w.isAddress = true) (hplain : v.isAddress = false) :
      PlainFirst (front ++ v :: back) (v :: (front ++ back))

namespace PlainFirst

variable {before after : List NamedValue}

theorem perm (h : PlainFirst before after) : after.Perm before := by
  cases h with
  | kept _ => exact .refl _
  | brought back _ _ => exact List.perm_middle.symm

/-- The one in front reads as an address exactly if there is one and all do. -/
theorem exists_isAddress_iff (h : PlainFirst before after) :
    (∃ v ∈ after.head?, v.isAddress = true) ↔ before ≠ [] ∧ ∀ v ∈ before, v.isAddress = true := by
  cases h with
  | kept hall =>
    rw [and_iff_left hall]
    cases before with
    | nil => simp
    | cons v rest => simpa using hall v List.mem_cons_self
  | brought back hfront hplain =>
    refine iff_of_false ?_ fun h => ?_
    · simp [hplain]
    · have hv := h.2 _ (List.mem_append_right _ List.mem_cons_self)
      rw [hplain] at hv
      exact Bool.noConfusion hv

end PlainFirst

namespace Url

variable {url base : Url} {encoder : Encoder}

theorem segments_plainFirst (url : Url) : url.plainFirst.segments = url.segments := by
  rw [plainFirst]
  cases url.query.findIdx? (!·.isAddress) with
  | none => rfl
  | some i =>
    show (url.moveToFront i).segments = _
    rw [moveToFront]
    split <;> rfl

theorem plainFirst_query (url : Url) : PlainFirst url.query url.plainFirst.query := by
  rw [plainFirst]
  cases h : url.query.findIdx? (!·.isAddress) with
  | none =>
    have hall := List.findIdx?_eq_none_iff.1 h
    exact .kept fun v hv => by simpa using hall v hv
  | some i =>
    obtain ⟨hi, hplain, hfront⟩ := List.findIdx?_eq_some_iff_getElem.1 h
    have hall : ∀ w ∈ url.query.take i, w.isAddress = true := by
      intro w hw
      obtain ⟨j, hj, rfl⟩ := List.mem_take_iff_getElem.1 hw
      simpa using hfront j (Nat.lt_of_lt_of_le hj (Nat.min_le_left ..))
    have hbrought := PlainFirst.brought (url.query.drop (i + 1)) hall (by simpa using hplain)
    rw [List.getElem_cons_drop hi, List.take_append_drop] at hbrought
    show PlainFirst url.query (url.moveToFront i).query
    rw [moveToFront, List.getElem?_eq_getElem hi]
    show PlainFirst url.query (url.query[i] :: url.query.eraseIdx i)
    rw [List.eraseIdx_eq_take_drop_succ]
    exact hbrought

theorem query_plainFirst_perm (url : Url) : url.plainFirst.query.Perm url.query :=
  url.plainFirst_query.perm

theorem isSome_ofUrl?_iff (url : Url) :
    (Address.ofUrl? url).isSome = true ↔ ∃ v ∈ url.query.head?, v.isAddress = true := by
  rw [Address.ofUrl?]
  cases url.query.head? with
  | none => simp
  | some v => simp [NamedValue.isAddress]

theorem ofUrl?_cons {v : NamedValue} {rest : List NamedValue} (h : url.query = v :: rest) :
    Address.ofUrl? url = none ↔ v.isAddress = false := by
  rw [Address.ofUrl?, h, List.head?_cons, Option.bind_some, NamedValue.isAddress,
    Option.isSome_eq_false_iff, Option.isNone_iff_eq_none]

/-- No address is in front exactly if there are no parameters, or one that does not read as an
address. -/
theorem ofUrl?_plainFirst_eq_none_iff (url : Url) :
    Address.ofUrl? url.plainFirst = none ↔
      url.query = [] ∨ ∃ v ∈ url.query, v.isAddress = false := by
  rw [← Option.not_isSome_iff_eq_none, isSome_ofUrl?_iff, url.plainFirst_query.exists_isAddress_iff]
  simp only [not_and_or, ne_eq, not_not, not_forall, Bool.not_eq_true, exists_prop]

/-! ## The URL of a page -/

/-- An address that is written stands in front of the parameters of the page. -/
theorem withPage_of_text_ne {a : Address} (ha : a.text ≠ "") (base : Url) (p : Parameters)
    (encoder : Encoder) :
    base.withPage (some a) p encoder =
      { segments := base.segments ++ (encoder.encode p).segments
        query := base.query ++ { name := a.text } :: (encoder.encode p).query } := by
  rw [withPage, Option.elim_some, if_neg ha]
  show append (pushParameter base _) _ = _
  rw [append, pushParameter, List.append_assoc, List.singleton_append]

/-- Without an address, the parameters of the page stand in the place for one. -/
theorem withPage_of_text_eq {address : Option Address} (ha : address.elim "" (·.text) = "")
    (hbase : base.query = []) (p : Parameters) (encoder : Encoder) :
    base.withPage address p encoder =
      { segments := base.segments ++ (encoder.encode p).segments
        query := (encoder.encode p).plainFirst.query } := by
  have hempty : base.query.isEmpty = true := by rw [hbase, List.isEmpty_nil]
  rw [withPage, if_pos ha, if_pos hempty]
  show append base _ = _
  rw [append, hbase, List.nil_append, segments_plainFirst]

/-- Whatever an encoder writes, the URL of a page has its segments behind those of the base, and its
query parameters. An address with a text stands in front of them. Without one, the first parameter reads
as an address exactly if there are parameters and all of them do, and only one that does not is
brought forward; all others keep their order. -/
theorem withPage_plainFirst (base : Url) (hbase : base.query = []) (address : Option Address)
    (p : Parameters) (encoder : Encoder) :
    (base.withPage address p encoder).segments = base.segments ++ (encoder.encode p).segments ∧
    (address.elim "" (·.text) ≠ "" →
      (base.withPage address p encoder).query =
        { name := address.elim "" (·.text) } :: (encoder.encode p).query) ∧
    (address.elim "" (·.text) = "" →
      (base.withPage address p encoder).query.Perm (encoder.encode p).query ∧
      ((Address.ofUrl? (base.withPage address p encoder)).isSome = true ↔
        (encoder.encode p).query ≠ [] ∧ ∀ v ∈ (encoder.encode p).query, v.isAddress = true) ∧
      PlainFirst (encoder.encode p).query (base.withPage address p encoder).query) := by
  by_cases htext : address.elim "" (·.text) = ""
  · have hquery := (encoder.encode p).plainFirst_query
    rw [withPage_of_text_eq htext hbase]
    refine ⟨rfl, fun hne => absurd htext hne, fun _ => ⟨hquery.perm, ?_, hquery⟩⟩
    rw [isSome_ofUrl?_iff]
    exact hquery.exists_isAddress_iff
  · cases address with
    | none => exact absurd rfl htext
    | some a =>
      rw [withPage_of_text_ne htext, hbase]
      exact ⟨rfl, fun _ => rfl, fun hempty => absurd hempty htext⟩

/-- Parameters of a page of which all but the third read as addresses. -/
def numbered : Parameters where
  named := [⟨"5", ""⟩, ⟨"-ILinkListener-link", ""⟩, ⟨"x", "1"⟩, ⟨"9", ""⟩]

/-- With an address that has no text, the third parameter is brought forward; behind one with a text
all stay in their order. -/
theorem withPage_plainFirst_of_numbered :
    ({ segments := ["users"] } : Url).query = [] ∧
    (some {} : Option Address).elim "" (·.text) = "" ∧
    Address.ofUrl? (({ segments := ["users"] } : Url).withPage (some {}) numbered .standard) = none ∧
    PlainFirst numbered.named [⟨"x", "1"⟩, ⟨"5", ""⟩, ⟨"-ILinkListener-link", ""⟩, ⟨"9", ""⟩] ∧
    (some (.ofPage 3) : Option Address).elim "" (·.text) ≠ "" ∧
    (({ segments := ["users"] } : Url).withPage (some (.ofPage 3)) numbered .standard).query =
      { name := (Address.ofPage 3).text } :: numbered.named := by
  have hempty : (some {} : Option Address).elim "" (·.text) = "" := by decide
  have hpage : (some (.ofPage 3) : Option Address).elim "" (·.text) ≠ "" := by decide
  obtain ⟨-, -, hwithout⟩ := withPage_plainFirst { segments := ["users"] } rfl (some {}) numbered .standard
  obtain ⟨-, hbehind, -⟩ :=
    withPage_plainFirst { segments := ["users"] } rfl (some (.ofPage 3)) numbered .standard
  obtain ⟨-, hslot, hplain⟩ := hwithout hempty
  have hquery : (({ segments := ["users"] } : Url).withPage (some {}) numbered .standard).query =
      [⟨"x", "1"⟩, ⟨"5", ""⟩, ⟨"-ILinkListener-link", ""⟩, ⟨"9", ""⟩] := by decide +kernel
  refine ⟨rfl, hempty, Option.not_isSome_iff_eq_none.1 fun hsome => ?_, hquery ▸ hplain, hpage,
    hbehind hpage⟩
  exact absurd ((hslot.1 hsome).2 ⟨"x", "1"⟩ (by decide)) (by decide)

end Url

end StatefulPages
