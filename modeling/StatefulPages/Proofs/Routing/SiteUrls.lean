import StatefulPages.Proofs.Routing.Instances
import StatefulPages.Routing.Site

/-!
# How a site without mounts reads URLs

Each of the mappers that a site has by itself reads only URLs of one form. So a request is read by the
form of its URL, whatever the scores of the mappers are.

* `Mapper.decode_compound`: mappers that agree on a request read it in any order;
* `Context.link_of_decodeBookmarkable?`, `Context.address_of_decodePageInstance?`,
  `Context.link_of_homePage`: what each mapper of pages reads;
* `Site.decode_eq`: what a site without mounts reads a request as (`Context.read?`);
* `Context.read?_bookmarkable`, `Context.read?_pageInstance`: what it reads URLs with an address as.
-/

namespace StatefulPages

/-! ## Several mappers -/

namespace Mapper

variable {σ : Type} {ms : List (Mapper σ)} {b : Buffer} {r : Request}

theorem ranked_perm [LE σ] [DecidableLE σ] (ms : List (Mapper σ)) (b : Buffer) (r : Request) :
    (ranked ms b r).Perm ms := by
  have hsort := (List.mergeSort_perm (ms.map fun m => (m.score b r, m)) fun x y => y.1 ≤ x.1).map
    Prod.snd
  rw [List.map_map] at hsort
  exact hsort.trans (by simp [Function.comp_def])

/-- The first mapper that can reads a request, if none of them changes the buffer. -/
theorem decodeFirst_eq (hbuffer : ∀ m ∈ ms, (m.decode b r).2 = b) :
    decodeFirst ms b r = (ms.findSome? fun m => (m.decode b r).1, b) := by
  induction ms with
  | nil => rfl
  | cons m ms ih =>
    have hm := hbuffer m List.mem_cons_self
    rw [decodeFirst, List.findSome?_cons]
    cases hread : m.decode b r with
    | mk read buffer =>
      rw [hread] at hm
      rw [show buffer = b from hm]
      cases read with
      | none => exact ih fun m' hm' => hbuffer m' (List.mem_cons_of_mem m hm')
      | some h => rfl

/-- Mappers that leave the buffer alone read a request as `read` in any order if each of them reads it
so or not at all, and one of them does if there is something to read. -/
theorem decode_compound [LE σ] [DecidableLE σ] [Max σ] [OfNat σ 0] {read : Option Handler}
    (hbuffer : ∀ m ∈ ms, (m.decode b r).2 = b)
    (hread : ∀ m ∈ ms, ∀ h, (m.decode b r).1 = some h → read = some h)
    (hexists : ∀ h, read = some h → ∃ m ∈ ms, (m.decode b r).1 = some h) :
    (compound ms).decode b r = (read, b) := by
  have hperm := ranked_perm ms b r
  show decodeFirst (ranked ms b r) b r = _
  rw [decodeFirst_eq fun m hm => hbuffer m (hperm.subset hm)]
  congr 1
  cases hfound : (ranked ms b r).findSome? fun m => (m.decode b r).1 with
  | none =>
    rw [List.findSome?_eq_none_iff] at hfound
    symm
    rw [Option.eq_none_iff_forall_ne_some]
    intro h hsome
    obtain ⟨m, hm, hmread⟩ := hexists h hsome
    rw [hfound m (hperm.symm.subset hm)] at hmread
    cases hmread
  | some h =>
    obtain ⟨m, hm, hmread⟩ := List.exists_of_findSome?_eq_some hfound
    exact (hread m (hperm.subset hm) h hmread).symm

end Mapper

/-! ## The forms of URLs -/

namespace Context

variable {c : Context} {r : Request} {url : Url}

/-- The marks of the URLs that a site makes itself. -/
def marks (c : Context) : List String :=
  [c.pageMark, c.bookmarkableMark, c.resourceMark]

theorem ne_of_marks (h : c.marks.Nodup) :
    c.resourceMark ≠ c.bookmarkableMark ∧ c.resourceMark ≠ c.pageMark ∧
      c.bookmarkableMark ≠ c.pageMark := by
  simp only [marks, List.nodup_cons, List.mem_cons, List.not_mem_nil, or_false, not_or] at h
  exact ⟨Ne.symm h.2.1, Ne.symm h.1.2, Ne.symm h.1.1⟩

/-- What a site without mounts reads a request as. -/
def read? (c : Context) (r : Request) : Option Handler :=
  if Mapper.isBelow c c.resourceMark r.url then Mapper.decodeResource? c r
  else if Mapper.isBelow c c.bookmarkableMark r.url then Mapper.decodeBookmarkable? c r
  else if Mapper.isBelow c c.pageMark r.url then Mapper.decodePageInstance? c r
  else ((Mapper.homePage c).decode [] r).1

theorem isBelow_iff {mark : String} :
    Mapper.isBelow c mark url = true ↔ ∃ rest, url.segments = c.root :: mark :: rest := by
  rw [Mapper.isBelow, Url.startsWith, List.isPrefixOf_iff_prefix]
  constructor
  · intro h
    obtain ⟨rest, h⟩ := h
    exact ⟨rest, h.symm⟩
  · intro h
    obtain ⟨rest, h⟩ := h
    exact ⟨rest, h.symm⟩

/-- A URL is below one mark at most. -/
theorem isBelow_of_ne {mark other : String} (hne : other ≠ mark)
    (h : Mapper.isBelow c mark url = true) : Mapper.isBelow c other url = false := by
  rw [Bool.eq_false_iff]
  intro hother
  obtain ⟨rest, hrest⟩ := isBelow_iff.1 h
  obtain ⟨rest', hrest'⟩ := isBelow_iff.1 hother
  rw [hrest] at hrest'
  injection hrest' with _ htail
  injection htail with hmark _
  exact hne hmark.symm

theorem isBelow_of_segments_nil (h : url.segments = []) (mark : String) :
    Mapper.isBelow c mark url = false := by
  rw [Mapper.isBelow, Url.startsWith, h]
  rfl

/-! ## Each mapper -/

theorem isBelow_of_decodeResource? {h : Handler} (hread : Mapper.decodeResource? c r = some h) :
    Mapper.isBelow c c.resourceMark r.url = true := by
  rw [Mapper.decodeResource?] at hread
  split at hread
  · assumption
  · cases hread

theorem isBelow_of_decodeBookmarkable? {h : Handler}
    (hread : Mapper.decodeBookmarkable? c r = some h) :
    Mapper.isBelow c c.bookmarkableMark r.url = true := by
  rw [Mapper.decodeBookmarkable?] at hread
  split at hread
  · assumption
  · cases hread

theorem isBelow_of_decodePageInstance? {h : Handler}
    (hread : Mapper.decodePageInstance? c r = some h) :
    Mapper.isBelow c c.pageMark r.url = true := by
  rw [Mapper.decodePageInstance?] at hread
  split at hread
  · rename_i hurl
    exact (Bool.and_eq_true_iff.1 hurl).1
  · cases hread

theorem segments_of_homePage {b : Buffer} {h : Handler}
    (hread : ((Mapper.homePage c).decode b r).1 = some h) : r.url.segments = [] := by
  change (if r.url.segments.isEmpty then _ else none) = some h at hread
  split at hread
  · rename_i hempty
    exact List.isEmpty_iff.1 hempty
  · cases hread

/-- What the mapper of page classes reads, a link to a page of a registered class says. -/
theorem link_of_decodeBookmarkable? {h : Handler}
    (hread : Mapper.decodeBookmarkable? c r = some h) :
    ∃ pageClass, c.isRegistered pageClass = true ∧
      PageLink.handler? { address := r.address?, pageClass
                          parameters := Encoder.standard.readParameters r.url 3 } c = some h := by
  rw [Mapper.decodeBookmarkable?, if_pos (isBelow_of_decodeBookmarkable? hread),
    Option.bind_eq_some_iff] at hread
  obtain ⟨name, -, hread⟩ := hread
  rw [pageClass?] at hread
  split at hread
  · rename_i hregistered
    exact ⟨name, hregistered, hread⟩
  · cases hread

/-- What the mapper of page instances reads, the address of a request with a page id says. -/
theorem address_of_decodePageInstance? {h : Handler}
    (hread : Mapper.decodePageInstance? c r = some h) :
    ∃ a id, r.address? = some a ∧ a.page = some id ∧
      c.handlerFor? (fun renderCount => { id := some id, renderCount }) a.component = some h := by
  rw [Mapper.decodePageInstance?] at hread
  split at hread
  · obtain ⟨a, haddress, hread⟩ := Option.bind_eq_some_iff.1 hread
    obtain ⟨id, hid, hread⟩ := Option.bind_eq_some_iff.1 hread
    exact ⟨a, id, haddress, hid, hread⟩
  · cases hread

/-- What the mapper of the home page reads, a link to the home page says. -/
theorem link_of_homePage {b : Buffer} {h : Handler}
    (hread : ((Mapper.homePage c).decode b r).1 = some h) :
    PageLink.handler? { address := r.address?, pageClass := c.home
                        parameters := Encoder.standard.readParameters r.url 0 } c = some h := by
  have hnil := segments_of_homePage hread
  change (if r.url.segments.isEmpty then _ else none) = some h at hread
  rwa [hnil, List.isEmpty_nil, if_pos rfl] at hread

end Context

namespace Site

variable {c : Context} {b : Buffer} {r : Request}

theorem mem_framework {m : Mapper} :
    m ∈ framework c ↔ m = .buffered ∨ m = .resource c ∨ m = .bookmarkable c ∨
      m = .pageInstance c ∨ m = .homePage c := by
  simp [framework]

theorem decode_buffered (hbuffer : b.response? r.url = none) :
    Mapper.buffered.decode b r = (none, b) := by
  rw [Mapper.buffered]
  simp only [hbuffer]

/-- The mappers of a site leave the buffer alone if there is no response for the request, and each
reads it as the form of the URL demands. -/
theorem read?_of_framework (hmarks : c.marks.Nodup) (hbuffer : b.response? r.url = none)
    {m : Mapper} (hm : m ∈ framework c) :
    (m.decode b r).2 = b ∧ ∀ h, (m.decode b r).1 = some h → c.read? r = some h := by
  obtain ⟨hbookmarkable, hresource, hpage⟩ := Context.ne_of_marks hmarks
  rcases mem_framework.1 hm with rfl | rfl | rfl | rfl | rfl
  · rw [decode_buffered hbuffer]
    exact ⟨rfl, fun h hread => by cases hread⟩
  · refine ⟨rfl, fun h hread => ?_⟩
    rw [Context.read?, if_pos (Context.isBelow_of_decodeResource? hread)]
    exact hread
  · refine ⟨rfl, fun h hread => ?_⟩
    have hbelow := Context.isBelow_of_decodeBookmarkable? hread
    rw [Context.read?, Context.isBelow_of_ne hbookmarkable hbelow, if_neg Bool.false_ne_true,
      if_pos hbelow]
    exact hread
  · refine ⟨rfl, fun h hread => ?_⟩
    have hbelow := Context.isBelow_of_decodePageInstance? hread
    rw [Context.read?, Context.isBelow_of_ne hresource hbelow, if_neg Bool.false_ne_true,
      Context.isBelow_of_ne hpage hbelow, if_neg Bool.false_ne_true, if_pos hbelow]
    exact hread
  · refine ⟨rfl, fun h hread => ?_⟩
    have hnil := Context.segments_of_homePage hread
    simp only [Context.read?, Context.isBelow_of_segments_nil hnil, Bool.false_eq_true, if_false]
    exact hread

theorem exists_of_read? (b : Buffer) {h : Handler} (hread : c.read? r = some h) :
    ∃ m ∈ framework c, (m.decode b r).1 = some h := by
  rw [Context.read?] at hread
  split at hread
  · exact ⟨.resource c, by simp [framework], hread⟩
  · split at hread
    · exact ⟨.bookmarkable c, by simp [framework], hread⟩
    · split at hread
      · exact ⟨.pageInstance c, by simp [framework], hread⟩
      · exact ⟨.homePage c, by simp [framework], hread⟩

/-- A site without mounts reads a request for which no response is buffered by the form of its URL. -/
theorem decode_eq (hmarks : c.marks.Nodup) (hbuffer : b.response? r.url = none) :
    (mapper { context := c }).decode b r = (c.read? r, b) :=
  Mapper.decode_compound (fun _ hm => (read?_of_framework hmarks hbuffer hm).1)
    (fun _ hm => (read?_of_framework hmarks hbuffer hm).2) (fun _ => exists_of_read? b)

end Site

/-! ## URLs of pages -/

namespace Context

variable {c : Context} {r : Request}

/-- The URL of a page class is read as what it says. -/
theorem read?_bookmarkable (hmarks : c.marks.Nodup) {pageClass : PageClass}
    (hregistered : c.isRegistered pageClass = true) {indexed : List String}
    (hsegments : r.url.segments = [c.root, c.bookmarkableMark, pageClass] ++ indexed) :
    c.read? r = ({ address := r.address?, pageClass
                   parameters := Encoder.standard.readParameters r.url 3 } : PageLink).handler? c := by
  obtain ⟨hresource, -, -⟩ := ne_of_marks hmarks
  have hbelow : Mapper.isBelow c c.bookmarkableMark r.url = true :=
    isBelow_iff.2 ⟨pageClass :: indexed, hsegments⟩
  have hname : r.url.segments[2]? = some pageClass := by rw [hsegments]; rfl
  rw [read?, isBelow_of_ne hresource hbelow, if_neg Bool.false_ne_true, if_pos hbelow,
    Mapper.decodeBookmarkable?, if_pos hbelow, hname, Option.bind_some, pageClass?,
    if_pos hregistered, Option.bind_some]

/-- The URL of a page instance is read as what its address asks for. -/
theorem read?_pageInstance (hmarks : c.marks.Nodup) {a : Address} {id : PageId}
    (hsegments : r.url.segments = [c.root, c.pageMark]) (haddress : r.address? = some a)
    (hid : a.page = some id) : c.read? r = c.handlerAt? a none {} := by
  obtain ⟨-, hresource, hbookmarkable⟩ := ne_of_marks hmarks
  have hbelow : Mapper.isBelow c c.pageMark r.url = true := isBelow_iff.2 ⟨[], hsegments⟩
  rw [read?, isBelow_of_ne hresource hbelow, if_neg Bool.false_ne_true,
    isBelow_of_ne hbookmarkable hbelow, if_neg Bool.false_ne_true, if_pos hbelow,
    Mapper.decodePageInstance?, hbelow, hsegments, haddress, handlerAt?, hid]
  simp [hid]

end Context

end StatefulPages
