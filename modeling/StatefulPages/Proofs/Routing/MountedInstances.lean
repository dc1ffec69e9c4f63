import StatefulPages.Proofs.Routing.Instances

/-!
# Instances of mounted pages from their URLs

The URL at a mount of a handler for a page that is there begins its query with the address of the
page or of its component. It is read as that handler again, unless the URL cannot say all of it.

* `Mount.decode?_url_address_iff`: what reading the URL of an address has to give back;
* `Mount.SaysInstance`: of what pages the URLs at a mount say the id and the parameters;
* `Mount.roundTrips_iff_saysInstance`: a handler is read back exactly if its page is one of these, and
  an address says the rest of it.
-/

namespace StatefulPages

namespace Mount

variable {m : Mount} {c : Context} {pages : Pages} {h : Handler} {page : PageSource}

/-! ## Reading -/

/-- A mount reads only what addresses say as a handler for a page that is there. -/
theorem addresses_of_decode? {r : Request} (hpage : h.page? = some page)
    (hread : (m.decode? c r == some h) = true) : c.Addresses h := by
  rw [decode?] at hread
  split at hread
  · cases h with
    | render | listener => exact absurd hread Bool.noConfusion
    | _ => cases hpage
  · rw [link?] at hread
    split at hread
    · exact PageLink.addresses_of_handler? (fun _ ha => Request.isSaid_of_address? ha) hpage hread
    · exact absurd hread Bool.noConfusion

theorem url_address (hencoder : m.encoder = .standard) {a : Address} (ha : a.IsSaid)
    (p : Parameters) :
    m.url (some a) p =
      { segments := (fill m.segments p).1 ++ p.indexed
        query := { name := a.text } :: m.others p } := by
  rw [url, fill_rest, Url.withPage_address ha, hencoder]
  rfl

/-- What a URL says that begins its query with an address. -/
theorem link?_address (hencoder : m.encoder = .standard) (hnames : m.placeholders.Nodup)
    {a : Address} (ha : a.IsSaid) (p : Parameters) (rest : List NamedValue) :
    m.link? { url := { segments := (fill m.segments p).1 ++ p.indexed
                       query := { name := a.text } :: rest } } =
      some { address := some { a with page := (Request.idIn? rest).or a.page }
             pageClass := m.pageClass
             parameters := { indexed := p.indexed
                             named := rest ++ m.placeholders.map p.firstOf } } := by
  rw [link?, if_pos (fits_fill ..), Request.address?_of_said rfl ha rfl, hencoder,
    Encoder.readParameters_address ha rfl, captures_fill hnames,
    List.drop_left' (length_fill m.segments p)]
  rfl

/-- The URL of an address is read as the handler that has the address exactly if the path shows, and
the page id and the parameters that are read are those of the page. -/
theorem decode?_url_address_iff (hencoder : m.encoder = .standard) (hnames : m.placeholders.Nodup)
    (ha : c.Addresses h) (hpage : h.page? = some page) (hlive : page.live = none)
    (hclass : page.pageClass = some m.pageClass) {a : Address} (hsaid : a.IsSaid)
    (haddress : h.address? pages = some a) (hid : a.page = page.id) :
    (m.decode? c { url := (m.url (some a) page.parameters).reread } == some h) = true ↔
      (fill m.segments page.parameters).1 ++ page.parameters.indexed ≠ [""] ∧
      (∀ id ∈ Request.idIn? (m.others page.parameters), page.id = some id) ∧
      ((m.others page.parameters).filter (· ≠ Url.blank) ++
        m.placeholders.map page.parameters.firstOf).Perm page.parameters.named := by
  rw [url_address hencoder hsaid, Url.reread, Url.filter_address hsaid, decode?, if_neg]
  · by_cases hblank : (fill m.segments page.parameters).1 ++ page.parameters.indexed = [""]
    · have hfits (query : List NamedValue) : m.fits { segments := [], query } = false := by
        simp [fits, m.ne_nil]
      rw [link?, if_neg]
      · simp [hblank]
      · simp [hblank, hfits]
    · simp only [if_neg hblank]
      rw [link?_address hencoder hnames hsaid, Option.bind_some, Context.handler?_of_address rfl,
        Context.handlerAt?_address_iff ha hpage hlive haddress, hid, Request.idIn?_filter,
        Context.or_eq_iff, Parameters.beq_iff]
      simp [hblank, hclass]
  · simp [takesHome, Url.isEmpty]

/-- Of what pages the URLs at a mount say the id and the parameters, with the standard encoder. -/
structure SaysInstance (m : Mount) (page : PageSource) : Prop where
  /-- Each placeholder has one value. -/
  single : ∀ name ∈ m.placeholders, (page.parameters.values name).length = 1
  /-- Of every other parameter the text shows something. -/
  shown : ∀ v ∈ m.others page.parameters, ¬ (v.name = "" ∧ v.value = "")
  /-- The path is not a single empty segment. -/
  path : ¬ ((∃ name, m.segments = [.placeholder name] ∧ page.parameters.get? name = some "") ∧
    page.parameters.indexed = [])
  /-- The other parameters name no page but this one. -/
  ownId : ∀ id ∈ Request.idIn? (m.others page.parameters), page.id = some id

theorem saysInstance_iff :
    m.SaysInstance page ↔
      (fill m.segments page.parameters).1 ++ page.parameters.indexed ≠ [""] ∧
      (∀ id ∈ Request.idIn? (m.others page.parameters), page.id = some id) ∧
      (∀ name ∈ m.placeholders, (page.parameters.values name).length = 1) ∧
        ∀ v ∈ m.others page.parameters, ¬ (v.name = "" ∧ v.value = "") := by
  constructor
  · intro h
    exact ⟨(fill_append_ne_blank_iff h.single _).2 h.path, h.ownId, h.single, h.shown⟩
  · intro h
    obtain ⟨hpath, hown, hsingle, hshown⟩ := h
    exact ⟨hsingle, hshown, (fill_append_ne_blank_iff hsingle _).1 hpath, hown⟩

/-- With the standard encoder, a handler for a page of the mounted class that is described is read
back from its URL exactly if the URL says the id and the parameters of the page, and an address says
the rest of the handler. -/
theorem roundTrips_iff_saysInstance (hencoder : m.encoder = .standard)
    (hnames : m.placeholders.Nodup) (c : Context) (pages : Pages) (b : Buffer)
    (hpage : h.page? = some page) (hlive : page.live = none)
    (hclass : page.pageClass = some m.pageClass) :
    (m.mapper c).RoundTrips pages b h ↔ m.SaysInstance page ∧ c.Addresses h := by
  have hencode : (m.mapper c).encode pages h =
      some (m.url (h.address? pages) page.parameters) := by
    simp [mapper, Mapper.ofRequests, PageLink.ofHandler?_of_page hpage, PageLink.acceptedClass?,
      hclass]
  have hread : (m.mapper c).RoundTrips pages b h ↔
      (m.decode? c { url := (m.url (h.address? pages) page.parameters).reread } == some h) = true :=
    Mapper.roundTrips_iff_reread hencode
  rw [hread]
  have hiff (ha : c.Addresses h) :
      (m.decode? c { url := (m.url (h.address? pages) page.parameters).reread } == some h) = true ↔
        m.SaysInstance page := by
    obtain ⟨a, haddress, hsaid, hid⟩ := ha.exists_address hpage hlive pages
    rw [haddress, decode?_url_address_iff hencoder hnames ha hpage hlive hclass hsaid haddress hid,
      saysInstance_iff, others, Parameters.perm_others_firsts_iff hnames]
    simp only [decide_eq_true_eq, blank_iff]
  constructor
  · intro hread
    have ha := addresses_of_decode? hpage hread
    exact ⟨(hiff ha).1 hread, ha⟩
  · intro hboth
    exact (hiff hboth.2).2 hboth.1

/-- The page of a user, with a parameter that names a page id. -/
def userPage (pageId : String) (renderCount : Option UInt32) : PageSource where
  id := some 5
  pageClass := some "User"
  parameters := { named := [⟨"id", "42"⟩, ⟨"page-id", pageId⟩] }
  renderCount := renderCount

/-- The parameter may name the page itself, and no other one; a call is read back if the site knows
just its interface. -/
theorem roundTrips_iff_saysInstance_of_users :
    (ofUsers .standard).placeholders.Nodup ∧
    ((ofUsers .standard).mapper { home := "Home" }).RoundTrips .empty []
      (.render (userPage " +5 " none) .auto) ∧
    ¬ ((ofUsers .standard).mapper { home := "Home" }).RoundTrips .empty []
      (.render (userPage "7" none) .auto) ∧
    ((ofUsers .standard).mapper { home := "Home" }).RoundTrips .empty []
      (.listener { page := userPage "seven" (some 2), path := "form:save"
                   interface := ⟨"IBehaviorListener", false⟩, behavior := some 1 }) ∧
    ¬ ((ofUsers .standard).mapper { home := "Home" }).RoundTrips .empty []
      (.listener { page := userPage "seven" (some 2), path := "form:save"
                   interface := ⟨"IBehaviorListener", true⟩, behavior := some 1 }) := by
  have hnames : (ofUsers .standard).placeholders.Nodup := by decide
  have hpath (pageId : String) (renderCount : Option UInt32) :
      ¬ ((∃ name, (ofUsers .standard).segments = [.placeholder name] ∧
          (userPage pageId renderCount).parameters.get? name = some "") ∧
        (userPage pageId renderCount).parameters.indexed = []) := by
    intro h
    obtain ⟨⟨name, hname, -⟩, -⟩ := h
    have hlength : 2 = 1 := congrArg List.length hname
    exact absurd hlength (by decide)
  have hown : Request.idIn? ((ofUsers .standard).others (userPage " +5 " none).parameters) =
      some 5 := by decide
  have hnone : Request.idIn? ((ofUsers .standard).others (userPage "seven" (some 2)).parameters) =
      none := by decide
  refine ⟨hnames, ?_, ?_, ?_, ?_⟩
  · refine (roundTrips_iff_saysInstance rfl hnames _ _ _ rfl rfl rfl).2 ⟨?_, ?_⟩
    · refine ⟨by decide, by decide, hpath _ _, fun id hid => ?_⟩
      rw [hown] at hid
      exact hid
    · exact ⟨by decide, by decide, rfl⟩
  · intro h
    have hboth := ((roundTrips_iff_saysInstance rfl hnames _ _ _ rfl rfl rfl).1 h).1
    exact absurd (hboth.ownId 7 (by decide)) (by decide)
  · refine (roundTrips_iff_saysInstance rfl hnames _ _ _ rfl rfl rfl).2 ⟨?_, ?_⟩
    · refine ⟨by decide, by decide, hpath _ _, fun id hid => ?_⟩
      rw [hnone] at hid
      cases hid
    · exact ⟨by decide, by decide, by decide, by decide⟩
  · intro h
    have hnames := ((roundTrips_iff_saysInstance rfl hnames _ _ _ rfl rfl rfl).1 h).2
    exact absurd hnames.known (by decide)

end Mount

end StatefulPages
