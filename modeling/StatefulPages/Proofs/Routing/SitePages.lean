import StatefulPages.Proofs.Routing.SiteUrls

/-!
# Pages of a site from their URLs

A site without mounts writes handlers of pages with its own mappers: those of registered classes as
URLs of the class, and all others as URLs of the page instance.

* `Context.SaysPage`: of what pages these URLs say the id, the class and the parameters;
* `Site.roundTrips_pages`: handlers of such pages are read back from their URLs;
* `Site.roundTrips_of_read`: so is every handler of a page that was read from a URL.
-/

namespace StatefulPages

namespace Site

variable {c : Context} {pages : Pages} {h : Handler} {page : PageSource} {pageClass : PageClass}
  {p : Parameters}

/-! ## Writing -/

/-- A handler of a page is written by the mapper of page classes if that can, then by that of page
instances and at last by that of the home page. -/
theorem encode_eq (hresource : Mapper.encodeResource? c h = none) :
    (mapper { context := c }).encode pages h =
      ((Mapper.bookmarkable c).encode pages h).or
        (((Mapper.pageInstance c).encode pages h).or ((Mapper.homePage c).encode pages h)) := by
  have hnone : (Mapper.resource c).encode pages h = none := hresource
  show (framework c).findSome? (·.encode pages h) = _
  simp only [framework, List.findSome?_cons, List.findSome?_nil, hnone, Mapper.buffered]
  cases (Mapper.bookmarkable c).encode pages h <;> cases (Mapper.pageInstance c).encode pages h <;>
    cases (Mapper.homePage c).encode pages h <;> rfl

theorem encodeResource?_of_page (hpage : h.page? = some page) :
    Mapper.encodeResource? c h = none := by
  cases h <;> first | rfl | cases hpage

/-- The URL of a new page of a registered class. -/
theorem encode_of_bookmarkable (hregistered : c.isRegistered pageClass = true) (p : Parameters)
    (pages : Pages) :
    (mapper { context := c }).encode pages (.bookmarkable pageClass p) =
      some { segments := [c.root, c.bookmarkableMark, pageClass] ++ p.indexed
             query := (Url.plainFirst { segments := p.indexed, query := p.named }).query } := by
  have hsegments := Url.segments_plainFirst { segments := p.indexed, query := p.named }
  have hencode : (Mapper.bookmarkable c).encode pages (.bookmarkable pageClass p) =
      some ({ segments := [c.root, c.bookmarkableMark, pageClass] } ++
        Url.plainFirst { segments := p.indexed, query := p.named }) := by
    simp [Mapper.bookmarkable, Mapper.ofRequests, PageLink.ofHandler?, hregistered, Url.withPage,
      Encoder.standard]
  rw [encode_eq rfl, hencode, Option.some_or]
  show some (Url.append _ _) = _
  rw [Url.append, hsegments]
  rfl

/-- The URL of a registered class with an address. -/
theorem encode_of_class (hpage : h.page? = some page)
    (hclass : PageLink.acceptedClass? pages c.isRegistered true page = some pageClass) {a : Address}
    (haddress : h.address? pages = some a) (ha : a.IsSaid) :
    (mapper { context := c }).encode pages h =
      some { segments := [c.root, c.bookmarkableMark, pageClass] ++ page.parameters.indexed
             query := { name := a.text } :: page.parameters.named } := by
  have hencode : (Mapper.bookmarkable c).encode pages h =
      some { segments := [c.root, c.bookmarkableMark, pageClass] ++ page.parameters.indexed
             query := { name := a.text } :: page.parameters.named } := by
    show (PageLink.ofHandler? pages c.isRegistered true h).map _ = _
    rw [PageLink.ofHandler?_of_page hpage, hclass, haddress]
    exact congrArg some (Url.withPage_address ha ..)
  rw [encode_eq (encodeResource?_of_page hpage), hencode, Option.some_or]

/-- The URL of a page instance. -/
theorem encode_of_instance (hpage : h.page? = some page)
    (hclass : PageLink.acceptedClass? pages c.isRegistered true page = none) {a : Address}
    (haddress : Mapper.instanceAddress? pages h = some a) :
    (mapper { context := c }).encode pages h =
      some { segments := [c.root, c.pageMark], query := [{ name := a.text }] } := by
  have hnone : (Mapper.bookmarkable c).encode pages h = none := by
    show (PageLink.ofHandler? pages c.isRegistered true h).map _ = none
    rw [PageLink.ofHandler?_of_page hpage, hclass]
    rfl
  have hencode : (Mapper.pageInstance c).encode pages h =
      some { segments := [c.root, c.pageMark], query := [{ name := a.text }] } := by
    show (Mapper.instanceAddress? pages h).map _ = _
    rw [haddress]
    rfl
  rw [encode_eq (encodeResource?_of_page hpage), hnone, hencode]
  rfl

theorem instanceAddress?_eq (hpage : h.page? = some page) {a : Address}
    (haddress : h.address? pages = some a) {id : PageId}
    (hid : PageLink.idInUrl pages page = some id) :
    Mapper.instanceAddress? pages h = some a := by
  cases h with
  | render page policy =>
    cases hpage
    exact haddress
  | listener call =>
    cases hpage
    cases haddress
    rw [Mapper.instanceAddress?, hid]
    rfl
  | _ => cases hpage

/-! ## Writing and reading -/

/-- What is written for a handler is read by the form of the URL. -/
theorem roundTrips_iff (hmarks : c.marks.Nodup) {url : Url}
    (hencode : (mapper { context := c }).encode pages h = some url) :
    (mapper { context := c }).RoundTrips pages [] h ↔
      (c.read? { url := url.reread } == some h) = true := by
  rw [Mapper.roundTrips_iff_reread hencode, decode_eq hmarks rfl]

theorem roundTrips_bookmarkable (hmarks : c.marks.Nodup)
    (hregistered : c.isRegistered pageClass = true) (hshown : ∀ v ∈ p.named, v ≠ Url.blank)
    (hplain : p.named = [] ∨ ∃ v ∈ p.named, v.isAddress = false) (pages : Pages) :
    (mapper { context := c }).RoundTrips pages [] (.bookmarkable pageClass p) := by
  have hperm := Url.query_plainFirst_perm { segments := p.indexed, query := p.named }
  have haddress (segments : List String) : Address.ofUrl?
      { segments, query := (Url.plainFirst { segments := p.indexed, query := p.named }).query } =
        none :=
    (Url.ofUrl?_plainFirst_eq_none_iff { segments := p.indexed, query := p.named }).2 hplain
  have hencode := encode_of_bookmarkable hregistered p pages
  generalize (Url.plainFirst { segments := p.indexed, query := p.named }).query = rest at *
  rw [roundTrips_iff hmarks hencode,
    Url.reread_eq_self (by simp) fun v hv => hshown v (hperm.subset hv),
    Context.read?_bookmarkable hmarks hregistered rfl, PageLink.handler?, Request.address?,
    haddress, Encoder.readParameters, haddress, Encoder.decode_standard]
  show (pageClass == pageClass && Parameters.instBEq.beq _ p) = true
  rw [beq_self_eq_true, Bool.true_and]
  exact Parameters.beq_iff.2 ⟨rfl, hperm⟩

/-- A handler of a page of a registered class that is described. -/
theorem roundTrips_ofClass (hmarks : c.marks.Nodup) (ha : c.Addresses h) (hpage : h.page? = some page)
    (hlive : page.live = none) (hclass : page.pageClass = some pageClass)
    (hregistered : c.isRegistered pageClass = true)
    (hshown : ∀ v ∈ page.parameters.named, v ≠ Url.blank)
    (hown : ∀ id ∈ Request.idIn? page.parameters.named, page.id = some id) (pages : Pages) :
    (mapper { context := c }).RoundTrips pages [] h := by
  obtain ⟨a, haddress, hsaid, hid⟩ := ha.exists_address hpage hlive pages
  have haccepted : PageLink.acceptedClass? pages c.isRegistered true page = some pageClass := by
    simp [PageLink.acceptedClass?, hclass, hregistered, PageSource.isBookmarkable, hlive]
  have hquery : ∀ v ∈ ({ name := a.text } : NamedValue) :: page.parameters.named, v ≠ Url.blank := by
    have hname : a.text ≠ "" := Address.text_ne hsaid (by decide)
    intro v hv
    rcases List.mem_cons.1 hv with rfl | hv
    · simp [Url.blank, hname]
    · exact hshown v hv
  rw [roundTrips_iff hmarks (encode_of_class hpage haccepted haddress hsaid),
    Url.reread_eq_self (by simp) hquery, Context.read?_bookmarkable hmarks hregistered rfl,
    Context.handler?_of_address (Request.address?_of_said rfl hsaid rfl),
    Context.handlerAt?_address_iff ha hpage hlive haddress]
  refine ⟨?_, hclass.symm, ?_⟩
  · rw [hid, Context.or_eq_iff]
    exact hown
  · dsimp only
    rw [Encoder.readParameters_address hsaid rfl, Parameters.beq_iff]
    exact ⟨rfl, .refl _⟩

/-- A handler of a page that is described by its id alone. -/
theorem roundTrips_ofInstance (hmarks : c.marks.Nodup) (ha : c.Addresses h)
    (hpage : h.page? = some page) (hlive : page.live = none) (hclass : page.pageClass = none)
    (hparameters : page.parameters = {}) {id : PageId} (hid : page.id = some id) (pages : Pages) :
    (mapper { context := c }).RoundTrips pages [] h := by
  obtain ⟨a, haddress, hsaid, hpageId⟩ := ha.exists_address hpage hlive pages
  have haccepted : PageLink.acceptedClass? pages c.isRegistered true page = none := by
    rw [PageLink.acceptedClass?, hclass, Option.bind_none]
  have hinstance := instanceAddress?_eq hpage haddress
    ((PageLink.idInUrl_of_live hlive).trans hid)
  have hname : a.text ≠ "" := Address.text_ne hsaid (by decide)
  have hread : Request.address?
      { url := { segments := [c.root, c.pageMark], query := [{ name := a.text }] } } = some a :=
    Request.address?_of_idIn?_none rfl hsaid rfl rfl
  rw [roundTrips_iff hmarks (encode_of_instance hpage haccepted hinstance),
    Url.reread_eq_self (by simp) (by simp [Url.blank, hname]),
    Context.read?_pageInstance hmarks rfl hread (hpageId.trans hid),
    Context.handlerAt?_address_iff ha hpage hlive haddress]
  refine ⟨hpageId, hclass.symm, ?_⟩
  rw [hparameters, Parameters.beq_iff]
  exact ⟨rfl, .refl _⟩

end Site

/-! ## What URLs say of a page -/

/-- Of what pages the URLs of a site without mounts say the id, the class and the parameters: pages of
registered classes, of whose parameters the text shows something and no other page id, and pages that
are described by their id alone. -/
def Context.SaysPage (c : Context) (page : PageSource) : Prop :=
  (∃ pageClass, page.pageClass = some pageClass ∧ c.isRegistered pageClass = true ∧
    (∀ v ∈ page.parameters.named, ¬ (v.name = "" ∧ v.value = "")) ∧
    ∀ id ∈ Request.idIn? page.parameters.named, page.id = some id) ∨
  (page.pageClass = none ∧ page.parameters = {} ∧ page.id ≠ none)

/-- What handlers the URLs of a site without mounts say: new pages of registered classes, unless all
their named parameters read as addresses, and what addresses say of the pages above. -/
def Context.CanSay (c : Context) (h : Handler) : Prop :=
  (∃ pageClass p, h = .bookmarkable pageClass p ∧ c.isRegistered pageClass = true ∧
    (∀ v ∈ p.named, ¬ (v.name = "" ∧ v.value = "")) ∧
    (p.named = [] ∨ ∃ v ∈ p.named, v.isAddress = false)) ∨
  ∃ page, h.page? = some page ∧ page.live = none ∧ c.Addresses h ∧ c.SaysPage page

namespace Site

variable {c : Context} {pages : Pages} {h : Handler} {page : PageSource} {pageClass : PageClass}
  {r : Request}

theorem roundTrips_of_canSay (hmarks : c.marks.Nodup) (hsaid : c.CanSay h) (pages : Pages) :
    (mapper { context := c }).RoundTrips pages [] h := by
  rcases hsaid with ⟨pageClass, p, rfl, hregistered, hshown, hplain⟩ | ⟨page, hpage, hlive, ha, hsaid⟩
  · exact roundTrips_bookmarkable hmarks hregistered (fun v hv => Mount.blank_iff.2 (hshown v hv))
      hplain pages
  · rcases hsaid with ⟨pageClass, hclass, hregistered, hshown, hown⟩ | ⟨hclass, hparameters, hid⟩
    · exact roundTrips_ofClass hmarks ha hpage hlive hclass hregistered
        (fun v hv => Mount.blank_iff.2 (hshown v hv)) hown pages
    · obtain ⟨id, hid⟩ := Option.ne_none_iff_exists'.1 hid
      exact roundTrips_ofInstance hmarks ha hpage hlive hclass hparameters hid pages

/-! ## Reading -/

/-- What a URL at a registered class is read as, the URLs of the site say. -/
theorem canSay_of_handler? (hheader : r.header? Request.pageIdHeader = none)
    (hregistered : c.isRegistered pageClass = true)
    (hshown : ∀ v ∈ r.url.query, ¬ (v.name = "" ∧ v.value = "")) {n : Nat}
    (hread : ({ address := r.address?, pageClass
                parameters := Encoder.standard.readParameters r.url n } : PageLink).handler? c =
      some h) : c.CanSay h := by
  cases haddress : r.address? with
  | none =>
    have hnone : Address.ofUrl? r.url = none := by
      rw [Request.address?, Option.map_eq_none_iff] at haddress
      exact haddress
    rw [haddress, Encoder.readParameters, hnone, Encoder.decode_standard] at hread
    cases hread
    refine .inl ⟨pageClass, _, rfl, hregistered, hshown, ?_⟩
    show r.url.query = [] ∨ ∃ v ∈ r.url.query, v.isAddress = false
    cases hquery : r.url.query with
    | nil => exact .inl rfl
    | cons v rest =>
      exact .inr ⟨v, List.mem_cons_self, (Url.ofUrl?_cons hquery).1 hnone⟩
  | some a =>
    obtain ⟨b, hb, -⟩ := Request.ofUrl?_of_address? haddress
    have hnamed : (Encoder.standard.readParameters r.url n).named = r.url.query.drop 1 := by
      rw [Encoder.readParameters, hb, Encoder.decode_standard]
      rfl
    rw [Context.handler?_of_address haddress] at hread
    obtain ⟨ha, renderCount, hpage⟩ :=
      Context.addresses_of_handlerAt? (Request.isSaid_of_address? haddress) hread
    refine .inr ⟨_, hpage, rfl, ha, .inl ⟨pageClass, rfl, hregistered, ?_, ?_⟩⟩
    · intro v hv
      rw [hnamed] at hv
      exact hshown v (List.mem_of_mem_drop hv)
    · rw [hnamed]
      exact Request.page_of_idIn? hheader haddress

theorem canSay_of_decodeBookmarkable? (hheader : r.header? Request.pageIdHeader = none)
    (hshown : ∀ v ∈ r.url.query, ¬ (v.name = "" ∧ v.value = ""))
    (hread : Mapper.decodeBookmarkable? c r = some h) : c.CanSay h := by
  obtain ⟨pageClass, hregistered, hread⟩ := Context.link_of_decodeBookmarkable? hread
  exact canSay_of_handler? hheader hregistered hshown hread

theorem canSay_of_decodePageInstance? (hread : Mapper.decodePageInstance? c r = some h) :
    c.CanSay h := by
  obtain ⟨a, id, haddress, hid, hread⟩ := Context.address_of_decodePageInstance? hread
  rw [← hid] at hread
  obtain ⟨ha, renderCount, hpage⟩ :=
    Context.addresses_of_handlerAt? (Request.isSaid_of_address? haddress) hread
  refine .inr ⟨_, hpage, rfl, ha, .inr ⟨rfl, rfl, ?_⟩⟩
  rw [hid]
  exact Option.some_ne_none id

theorem canSay_of_homePage (hheader : r.header? Request.pageIdHeader = none)
    (hshown : ∀ v ∈ r.url.query, ¬ (v.name = "" ∧ v.value = "")) {b : Buffer}
    (hread : ((Mapper.homePage c).decode b r).1 = some h) : c.CanSay h := by
  have hregistered : c.isRegistered c.home = true := by simp [Context.isRegistered]
  exact canSay_of_handler? hheader hregistered hshown (Context.link_of_homePage hread)

theorem resource_of_decodeResource? (hread : Mapper.decodeResource? c r = some h) :
    ∃ resource p, h = .resource resource p := by
  rw [Mapper.decodeResource?, if_pos (Context.isBelow_of_decodeResource? hread)] at hread
  cases hsegments : r.url.segments.drop 2 with
  | nil =>
    rw [hsegments] at hread
    cases hread
  | cons scope segments =>
    rw [hsegments] at hread
    dsimp only at hread
    split at hread
    · cases hread
    · cases hread
      exact ⟨_, _, rfl⟩

/-- What a site without mounts reads is a resource or what its URLs say. -/
theorem canSay_of_read? (hheader : r.header? Request.pageIdHeader = none)
    (hshown : ∀ v ∈ r.url.query, ¬ (v.name = "" ∧ v.value = "")) (hread : c.read? r = some h) :
    (∃ resource p, h = .resource resource p) ∨ c.CanSay h := by
  rw [Context.read?] at hread
  split at hread
  · exact .inl (resource_of_decodeResource? hread)
  · split at hread
    · exact .inr (canSay_of_decodeBookmarkable? hheader hshown hread)
    · split at hread
      · exact .inr (canSay_of_decodePageInstance? hread)
      · exact .inr (canSay_of_homePage hheader hshown hread)

/-! ## The round trips -/

/-- A site without mounts reads back what it writes for a new page of a registered class, unless all
named parameters read as addresses, and what it writes for what an address says of a page of which its
URLs say the rest. -/
theorem roundTrips_pages (hmarks : c.marks.Nodup) (pages : Pages) :
    (∀ pageClass p, c.isRegistered pageClass = true →
      (∀ v ∈ p.named, ¬ (v.name = "" ∧ v.value = "")) →
      (p.named = [] ∨ ∃ v ∈ p.named, v.isAddress = false) →
      (mapper { context := c }).RoundTrips pages [] (.bookmarkable pageClass p)) ∧
    ∀ h page, h.page? = some page → page.live = none → c.Addresses h → c.SaysPage page →
      (mapper { context := c }).RoundTrips pages [] h := by
  constructor
  · intro pageClass p hregistered hshown hplain
    exact roundTrips_of_canSay hmarks (.inl ⟨pageClass, p, rfl, hregistered, hshown, hplain⟩) pages
  · intro h page hpage hlive ha hsaid
    exact roundTrips_of_canSay hmarks (.inr ⟨page, hpage, hlive, ha, hsaid⟩) pages

/-- The URLs of a class with a parameter that reads as an address, and of a component of a page that is
described by its id alone. -/
theorem roundTrips_pages_of_user :
    ({ home := "Home", classes := ["User"] } : Context).marks.Nodup ∧
    (mapper { context := { home := "Home", classes := ["User"] } }).RoundTrips .empty []
      (.bookmarkable "User" { indexed := ["", "7"], named := [⟨"5", ""⟩, ⟨"x", "1"⟩] }) ∧
    (mapper { context := { home := "Home", classes := ["User"] } }).RoundTrips .empty []
      (.listener { page := { id := some 5, renderCount := some 2 }, path := "form:save"
                   interface := ⟨"ILinkListener", true⟩ }) := by
  have hmarks : ({ home := "Home", classes := ["User"] } : Context).marks.Nodup := by decide
  refine ⟨hmarks, ?_, ?_⟩
  · refine (roundTrips_pages hmarks .empty).1 _ _ (by decide) (by decide) (.inr ?_)
    exact ⟨⟨"x", "1"⟩, by decide, by decide⟩
  · refine (roundTrips_pages hmarks .empty).2 _ _ rfl rfl ?_ ?_
    · exact ⟨by decide, by decide, by decide, by decide⟩
    · exact .inr ⟨rfl, rfl, by decide⟩

/-- What a site without mounts reads from a text, other than a resource, it reads back from the URL
that it writes for it. -/
theorem roundTrips_of_read (hmarks : c.marks.Nodup) (pages : Pages) {text : String}
    (hshown : ∀ v ∈ (Url.parse text).query, ¬ (v.name = "" ∧ v.value = ""))
    (hread : ((mapper { context := c }).decode [] (Request.ofText text)).1 = some h)
    (hresource : ∀ resource p, h ≠ .resource resource p) :
    (mapper { context := c }).RoundTrips pages [] h := by
  rw [decode_eq hmarks rfl] at hread
  rcases canSay_of_read? rfl hshown hread with ⟨resource, p, rfl⟩ | hsaid
  · exact absurd rfl (hresource resource p)
  · exact roundTrips_of_canSay hmarks hsaid pages

/-- What the root of the application asks for, with an id in place of the one in front. -/
def homeCall : Handler :=
  .listener { page := { id := some 9, pageClass := some "Home"
                        parameters := { named := [⟨"page-id", " 9"⟩] }, renderCount := some 1 }
              path := "form:save", interface := ⟨"ILinkListener", true⟩ }

/-- A call at the root of the application, which is written as one at the class of the home page. -/
theorem roundTrips_of_read_of_homeCall :
    ({ home := "Home" } : Context).marks.Nodup ∧
    (∀ v ∈ (Url.parse "/?007-01.ILinkListener-form-save&page-id=%209").query,
      ¬ (v.name = "" ∧ v.value = "")) ∧
    ((mapper { context := { home := "Home" } }).decode []
      (Request.ofText "/?007-01.ILinkListener-form-save&page-id=%209")).1 = some homeCall ∧
    (mapper { context := { home := "Home" } }).RoundTrips .empty [] homeCall := by
  have hmarks : ({ home := "Home" } : Context).marks.Nodup := by decide
  have hshown : ∀ v ∈ (Url.parse "/?007-01.ILinkListener-form-save&page-id=%209").query,
      ¬ (v.name = "" ∧ v.value = "") := by decide +kernel
  have hread : ((mapper { context := { home := "Home" } }).decode []
      (Request.ofText "/?007-01.ILinkListener-form-save&page-id=%209")).1 = some homeCall := by
    rw [decode_eq hmarks rfl]
    decide +kernel
  refine ⟨hmarks, hshown, hread, ?_⟩
  exact roundTrips_of_read hmarks .empty hshown hread fun _ _ => Handler.noConfusion

end Site

end StatefulPages
