import Mathlib.Data.List.Pairwise
import StatefulPages.Proofs.Routing.FrameworkUrls
import StatefulPages.Proofs.Routing.MountedPages

/-!
# Which of several mounts reads a URL

A URL with a path belongs to the mounts of a site unless it is one that the site makes itself. Of the
mounts that fit, the one with the most segments reads it, and of several with as many the one that was
added last. The order of the mounts makes no difference where no two with as many segments fit.

* `Mount.IsLongest`: the mount that a URL belongs to;
* `Context.NamesUnknown`: the URLs that no mount reads, as they call a listener that is not known;
* `Site.decode_mounted`: what a site reads, and when the order of its mounts makes no difference.
-/

namespace StatefulPages

/-! ## What a link asks for -/

/-- The class of the page that is made, rendered or called. -/
def Handler.pageClass? : Handler → Option PageClass
  | bookmarkable pageClass _ => some pageClass
  | render page _ => page.pageClass
  | listener call => call.page.pageClass
  | _ => none

/-- Indicates a URL that addresses a component on an interface that the site does not know. -/
def Context.NamesUnknown (c : Context) (url : Url) : Prop :=
  ∃ a component, Address.ofUrl? url = some a ∧ a.component = some component ∧
    ∀ i ∈ c.interfaces, i.name ≠ component.interface

namespace PageLink

variable {c : Context} {link : PageLink} {r : Request}

theorem pageClass?_of_handler? {h : Handler} (hread : link.handler? c = some h) :
    h.pageClass? = some link.pageClass := by
  rw [handler?] at hread
  cases haddress : link.address with
  | none =>
    rw [haddress] at hread
    cases hread
    rfl
  | some a =>
    rw [haddress] at hread
    cases hcomponent : a.component with
    | none =>
      simp only [hcomponent, Context.handlerFor?] at hread
      cases hread
      rfl
    | some component =>
      simp only [hcomponent, Context.handlerFor?, Option.map_eq_some_iff] at hread
      obtain ⟨interface, -, rfl⟩ := hread
      rfl

/-- A link with the address of a request asks for nothing only if the site does not know the
interface. -/
theorem handler?_eq_none_iff (haddress : link.address = r.address?) :
    link.handler? c = none ↔ c.NamesUnknown r.url := by
  rw [handler?, haddress, Request.address?, Context.NamesUnknown]
  cases hurl : Address.ofUrl? r.url with
  | none => simp
  | some a =>
    rw [Option.map_some]
    cases hcomponent : a.component with
    | none => simp [Context.handlerFor?, hcomponent]
    | some component => simp [Context.handlerFor?, hcomponent, Context.interface?]

end PageLink

/-! ## Mounts -/

namespace Mount

variable {m m' : Mount} {mounts : List Mount} {c : Context} {url : Url} {r : Request}

/-- Indicates the mount of a list that a URL belongs to: of those that fit, it has more segments
than each one added later, and no fewer than each one added before it. -/
def IsLongest (mounts : List Mount) (url : Url) (m : Mount) : Prop :=
  IsFirstGreatest (·.fits url = true) (·.segments.length) mounts m

/-- Behind the root of the application a mount reads only what fits, as a link says it. -/
theorem decode?_of_segments (hsegments : r.url.segments ≠ []) :
    m.decode? c r = (m.link? r).bind (·.handler? c) := by
  have hhome : m.takesHome c r.url = false := by
    simp [takesHome, Url.isEmpty, hsegments]
  rw [decode?, hhome, if_neg Bool.false_ne_true]

theorem decode?_eq_none_iff (hsegments : r.url.segments ≠ []) :
    m.decode? c r = none ↔ m.fits r.url = false ∨ c.NamesUnknown r.url := by
  rw [decode?_of_segments hsegments, link?]
  split
  · rename_i hfits
    rw [Option.bind_some, PageLink.handler?_eq_none_iff rfl, hfits]
    exact (or_iff_right Bool.noConfusion).symm
  · rename_i hfits
    exact iff_of_true rfl (.inl (Bool.eq_false_iff.2 hfits))

theorem pageClass?_of_decode? (hsegments : r.url.segments ≠ []) {h : Handler}
    (hread : m.decode? c r = some h) : h.pageClass? = some m.pageClass := by
  rw [decode?_of_segments hsegments, link?] at hread
  split at hread
  · exact PageLink.pageClass?_of_handler? hread
  · cases hread

end Mount

/-! ## Sites -/

namespace Site

variable {c : Context} {mounts mounts' : List Mount} {m : Mount} {b : Buffer} {r : Request}

/-- Indicates a request for a path that the site has not made itself, and for which no response
waits. -/
structure IsForMounts (c : Context) (b : Buffer) (r : Request) : Prop where
  segments : r.url.segments ≠ []
  notBelow : ∀ mark ∈ c.marks, Mapper.isBelow c mark r.url = false
  notWaiting : b.response? r.url = none

theorem IsForMounts.not_isBelow (h : IsForMounts c b r) {mark : String} (hmark : mark ∈ c.marks) :
    ¬ Mapper.isBelow c mark r.url = true :=
  Bool.eq_false_iff.1 (h.notBelow mark hmark)

theorem IsForMounts.not_reads (h : IsForMounts c b r) {x : Mapper} (hx : x ∈ framework c) :
    ¬ x.Reads b r := by
  intro hreads
  obtain ⟨handler, hread⟩ := Option.isSome_iff_exists.1 hreads
  rcases mem_framework.1 hx with rfl | rfl | rfl | rfl | rfl
  · rw [decode_buffered h.notWaiting] at hread
    cases hread
  · exact h.not_isBelow (by simp [Context.marks]) (Context.isBelow_of_decodeResource? hread)
  · exact h.not_isBelow (by simp [Context.marks]) (Context.isBelow_of_decodeBookmarkable? hread)
  · exact h.not_isBelow (by simp [Context.marks]) (Context.isBelow_of_decodePageInstance? hread)
  · exact h.segments (Context.segments_of_homePage hread)

/-- Where no mount fits, or the interface is not known, nothing is read. -/
theorem IsForMounts.decode_of_none (h : IsForMounts c b r)
    (hnone : (∀ m ∈ mounts, m.fits r.url = false) ∨ c.NamesUnknown r.url) :
    (mapper { context := c, mounts }).decode b r = (none, b) := by
  have hreads : ∀ x ∈ mappers { context := c, mounts }, ¬ x.Reads b r := by
    intro x hx
    rcases mem_mappers.1 hx with ⟨m, hm, rfl⟩ | hx
    · have hread : m.decode? c r = none :=
        (Mount.decode?_eq_none_iff h.segments).2 (hnone.imp_left (· m hm))
      exact Option.not_isSome_iff_eq_none.2 hread
    · exact h.not_reads hx
  exact Mapper.decode_of_not_reads hreads fun x hx => keep_of_not_reads hx

/-- The mount that a URL belongs to has precedence over all other mappers. -/
theorem IsForMounts.isBest (h : IsForMounts c b r) (hlongest : Mount.IsLongest mounts r.url m)
    (hknown : ¬ c.NamesUnknown r.url) :
    Mapper.IsBest (mappers { context := c, mounts }) b r (m.mapper c) := by
  have hreads (x : Mount) : (x.mapper c).Reads b r ↔ x.fits r.url = true := by
    show (x.decode? c r).isSome = true ↔ _
    rw [Option.isSome_iff_ne_none, Ne, Mount.decode?_eq_none_iff h.segments, not_or,
      Bool.not_eq_false]
    exact and_iff_left hknown
  have hscore {x : Mount} (hfits : x.fits r.url = true) :
      (x.mapper c).score b r = x.segments.length := by
    rw [score_mount, if_pos hfits]
  obtain ⟨hfits, later, earlier, rfl, hlater, hearlier⟩ := hlongest
  have hbest : Mapper.IsBest ((later ++ m :: earlier).map (·.mapper c)) b r (m.mapper c) := by
    refine ⟨(hreads m).2 hfits, later.map (·.mapper c), earlier.map (·.mapper c), by simp, ?_, ?_⟩
    · intro x hx hxreads
      obtain ⟨y, hy, rfl⟩ := List.mem_map.1 hx
      have hyfits := (hreads y).1 hxreads
      rw [hscore hfits, hscore hyfits]
      exact hlater y hy hyfits
    · intro x hx hxreads
      obtain ⟨y, hy, rfl⟩ := List.mem_map.1 hx
      have hyfits := (hreads y).1 hxreads
      rw [hscore hfits, hscore hyfits]
      exact hearlier y hy hyfits
  exact hbest.append_right fun x hx hxreads => absurd hxreads (h.not_reads hx)

theorem IsForMounts.decode_of_isLongest (h : IsForMounts c b r)
    (hlongest : Mount.IsLongest mounts r.url m) (hknown : ¬ c.NamesUnknown r.url) :
    ∃ handler, m.decode? c r = some handler ∧ handler.pageClass? = some m.pageClass ∧
      (mapper { context := c, mounts }).decode b r = (some handler, b) := by
  have hread : m.decode? c r ≠ none := by
    rw [Ne, Mount.decode?_eq_none_iff h.segments, not_or, Bool.not_eq_false]
    exact ⟨hlongest.1, hknown⟩
  obtain ⟨handler, hread⟩ := Option.ne_none_iff_exists'.1 hread
  refine ⟨handler, hread, Mount.pageClass?_of_decode? h.segments hread, ?_⟩
  rw [decode_of_isBest (h.isBest hlongest hknown)]
  show (m.decode? c r, b) = _
  rw [hread]

/-- In any other order, the same mounts read the same, if no two with as many segments fit. -/
theorem IsForMounts.decode_of_perm (h : IsForMounts c b r) (hperm : mounts.Perm mounts')
    (hapart : mounts.Pairwise fun m m' =>
      m.segments.length = m'.segments.length → ¬ (m.fits r.url = true ∧ m'.fits r.url = true)) :
    (mapper { context := c, mounts := mounts' }).decode b r =
      (mapper { context := c, mounts }).decode b r := by
  by_cases hread : (∃ m ∈ mounts, m.fits r.url = true) ∧ ¬ c.NamesUnknown r.url
  · obtain ⟨⟨m, hm, hfits⟩, hknown⟩ := hread
    obtain ⟨best, hbest⟩ : ∃ best, Mount.IsLongest mounts r.url best :=
      exists_isFirstGreatest ⟨m, hm, hfits⟩
    obtain ⟨best', hbest'⟩ : ∃ best, Mount.IsLongest mounts' r.url best :=
      exists_isFirstGreatest ⟨m, hperm.subset hm, hfits⟩
    have hmem := hperm.symm.subset hbest'.mem
    have hlength : best.segments.length = best'.segments.length :=
      Nat.le_antisymm (hbest'.le (hperm.subset hbest.mem) hbest.1) (hbest.le hmem hbest'.1)
    have hsame : best = best' := by
      by_contra hne
      have : Std.Symm fun m m' : Mount => m.segments.length = m'.segments.length →
          ¬ (m.fits r.url = true ∧ m'.fits r.url = true) :=
        ⟨fun x y hxy hlength hfits => hxy hlength.symm hfits.symm⟩
      exact hapart.forall hbest.mem hmem hne hlength ⟨hbest.1, hbest'.1⟩
    obtain ⟨handler, hhandler, -, hdecode⟩ := h.decode_of_isLongest hbest hknown
    obtain ⟨handler', hhandler', -, hdecode'⟩ := h.decode_of_isLongest hbest' hknown
    rw [hsame, hhandler', Option.some.injEq] at hhandler
    rw [hdecode, hdecode', hhandler]
  · have hnone : (∀ m ∈ mounts, m.fits r.url = false) ∨ c.NamesUnknown r.url := by
      rw [not_and_or, not_not] at hread
      refine hread.imp_left fun hnot m hm => ?_
      exact Bool.eq_false_iff.2 fun hfits => hnot ⟨m, hm, hfits⟩
    rw [h.decode_of_none hnone,
      h.decode_of_none (hnone.imp_left fun hfits m hm => hfits m (hperm.symm.subset hm))]

/-- For a path that the site has not made itself, nothing is read if no mount fits or if the
interface is not known; else the mount that the URL belongs to reads it, as a handler of a page of its
class. The order of the mounts makes no difference if no two of them with as many segments fit. -/
theorem decode_mounted (hsegments : r.url.segments ≠ [])
    (hbelow : ∀ mark ∈ c.marks, Mapper.isBelow c mark r.url = false)
    (hnone : b.response? r.url = none) :
    ((∀ m ∈ mounts, m.fits r.url = false) ∨ c.NamesUnknown r.url →
      (mapper { context := c, mounts }).decode b r = (none, b)) ∧
    ((∃ m ∈ mounts, m.fits r.url = true) → ¬ c.NamesUnknown r.url →
      ∃ m h, Mount.IsLongest mounts r.url m ∧ m.decode? c r = some h ∧
        h.pageClass? = some m.pageClass ∧
        (mapper { context := c, mounts }).decode b r = (some h, b)) ∧
    ∀ mounts' : List Mount, mounts.Perm mounts' →
      (mounts.Pairwise fun m m' => m.segments.length = m'.segments.length →
        ¬ (m.fits r.url = true ∧ m'.fits r.url = true)) →
      (mapper { context := c, mounts := mounts' }).decode b r =
        (mapper { context := c, mounts }).decode b r := by
  have h : IsForMounts c b r := ⟨hsegments, hbelow, hnone⟩
  refine ⟨h.decode_of_none, fun hfits hknown => ?_, fun mounts' => h.decode_of_perm⟩
  obtain ⟨m, hlongest⟩ : ∃ m, Mount.IsLongest mounts r.url m := exists_isFirstGreatest hfits
  obtain ⟨handler, hread, hclass, hdecode⟩ := h.decode_of_isLongest hlongest hknown
  exact ⟨m, handler, hlongest, hread, hclass, hdecode⟩

/-- Three mounts for the pages of users, the one added last with fewer segments. -/
def aroundUsers : List Mount :=
  [atNames, .ofUsers .standard, atPairs]

/-- Of the mounts with two segments the one added last reads a URL, also behind a shorter one and in
another order. If the interface is not known, none does. -/
theorem decode_mounted_of_users :
    (∀ text ∈ ["/users/42?5", "/users/42?5-IOther-link"],
      (Url.parse text).segments ≠ [] ∧
      ∀ mark ∈ ({ home := "Home" } : Context).marks,
        Mapper.isBelow { home := "Home" } mark (Url.parse text) = false) ∧
    (mapper { context := { home := "Home" }, mounts := aroundUsers }).decode []
      (Request.ofText "/users/42?5") =
        (some (.render { id := some 5, pageClass := some "User"
                         parameters := { named := [⟨"id", "42"⟩] } } .auto), []) ∧
    (mapper { context := { home := "Home" }, mounts := [.ofUsers .standard, atNames] }).decode []
        (Request.ofText "/users/42?5") =
      (mapper { context := { home := "Home" }, mounts := [atNames, .ofUsers .standard] }).decode []
        (Request.ofText "/users/42?5") ∧
    (mapper { context := { home := "Home" }, mounts := aroundUsers }).decode []
      (Request.ofText "/users/42?5-IOther-link") = (none, []) := by
  have hpath : ∀ text ∈ ["/users/42?5", "/users/42?5-IOther-link"],
      (Url.parse text).segments ≠ [] ∧
      ∀ mark ∈ ({ home := "Home" } : Context).marks,
        Mapper.isBelow { home := "Home" } mark (Url.parse text) = false := by decide +kernel
  obtain ⟨hsegments, hbelow⟩ := hpath "/users/42?5" (by decide)
  obtain ⟨hsegments', hbelow'⟩ := hpath "/users/42?5-IOther-link" (by decide)
  have hknown : ¬ ({ home := "Home" } : Context).NamesUnknown (Url.parse "/users/42?5") := by
    rintro ⟨a, component, haddress, hcomponent, -⟩
    have hpage : Address.ofUrl? (Url.parse "/users/42?5") = some (.ofPage 5) := by decide +kernel
    rw [hpage] at haddress
    cases haddress
    cases hcomponent
  have hunknown : ({ home := "Home" } : Context).NamesUnknown
      (Url.parse "/users/42?5-IOther-link") :=
    ⟨{ page := some 5, component := some { interface := "IOther", path := "link" } }, _,
      by decide +kernel, rfl, by decide⟩
  have hlongest : Mount.IsLongest aroundUsers (Url.parse "/users/42?5") (.ofUsers .standard) :=
    ⟨by decide +kernel, [atNames], [atPairs], rfl, by decide, by decide⟩
  refine ⟨hpath, ?_, ?_, ?_⟩
  · obtain ⟨m, h, hm, hread, -, hdecode⟩ := (decode_mounted (r := Request.ofText "/users/42?5")
      (b := []) hsegments hbelow rfl).2.1 ⟨_, hlongest.mem, hlongest.1⟩ hknown
    cases hm.unique hlongest
    rw [hdecode, ← hread]
    decide +kernel
  · refine (decode_mounted (r := Request.ofText "/users/42?5") (b := []) hsegments hbelow rfl).2.2 _
      (.swap ..) ?_
    exact List.pairwise_pair.2 fun hlength => absurd hlength (by decide)
  · exact (decode_mounted (r := Request.ofText "/users/42?5-IOther-link") (b := []) hsegments'
      hbelow' rfl).1 (.inr hunknown)

end Site

end StatefulPages
