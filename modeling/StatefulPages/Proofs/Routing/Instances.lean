import StatefulPages.Proofs.Routing.AddressText
import StatefulPages.Proofs.Routing.MountedPages

/-!
# Handlers of pages that are there

The URL of a handler that renders a page, or calls a listener on it, says the address of the page and
its parameters.

* `Context.Addresses`: what handlers the addresses of a site say;
* `Context.addresses_of_handlerAt?`: an address is read as nothing else;
* `Context.handlerAt?_address_iff`: what has to hold for a handler to be read back from its address;
* `Request.address?_of_said`: the address of a request for a URL that begins its query with one, where
  a parameter may name another page.
-/

namespace StatefulPages

/-! ## Equal handlers -/

theorem PageSource.beq_iff {a b : PageSource} :
    (a == b) = true ↔ a.live = b.live ∧ a.id = b.id ∧ a.pageClass = b.pageClass ∧
      (a.parameters == b.parameters) = true ∧ a.renderCount = b.renderCount := by
  show (a.live == b.live && a.id == b.id && a.pageClass == b.pageClass &&
    a.parameters == b.parameters && a.renderCount == b.renderCount) = true ↔ _
  simp only [Bool.and_eq_true, beq_iff_eq, and_assoc]

namespace Handler

theorem render_beq_iff {p q : PageSource} {a b : RedirectPolicy} :
    (render p a == render q b) = true ↔ (p == q) = true ∧ a = b := by
  show (p == q && a == b) = true ↔ _
  exact Bool.and_eq_true_iff.trans (and_congr_right' beq_iff_eq)

theorem listener_beq_iff {a b : ListenerCall} :
    (listener a == listener b) = true ↔ (a.page == b.page) = true ∧ a.path = b.path ∧
      a.interface = b.interface ∧ a.behavior = b.behavior := by
  show (a.page == b.page && a.path == b.path && a.interface == b.interface &&
    a.behavior == b.behavior) = true ↔ _
  simp only [Bool.and_eq_true, beq_iff_eq, and_assoc]

/-- The page that is rendered or has the listener. -/
def page? : Handler → Option PageSource
  | render page _ => some page
  | listener call => some call.page
  | _ => none

/-- The address that the URL of a handler says. -/
def address? (pages : Pages) : Handler → Option Address
  | render page _ => (PageLink.idInUrl pages page).map Address.ofPage
  | listener call =>
    some { page := PageLink.idInUrl pages call.page
           component := some (call.componentAddress pages) }
  | _ => none

end Handler

variable {pages : Pages} {h : Handler} {page : PageSource}

theorem PageLink.ofHandler?_of_page (hpage : h.page? = some page) (accepts : PageClass → Bool)
    (mustBeBookmarkable : Bool) :
    ofHandler? pages accepts mustBeBookmarkable h =
      (acceptedClass? pages accepts mustBeBookmarkable page).map fun pageClass =>
        { address := h.address? pages, pageClass, parameters := page.parameters } := by
  cases h <;> cases hpage <;> rfl

theorem PageLink.idInUrl_of_live (hlive : page.live = none) : idInUrl pages page = page.id := by
  rw [idInUrl, PageSource.isStateless, hlive]
  rfl

theorem PageSource.expectedRenderCount_of_live (hlive : page.live = none) :
    page.expectedRenderCount pages = page.renderCount := by
  rw [expectedRenderCount, hlive, Option.map_none, Option.or_none]

/-! ## What addresses say -/

namespace Context

variable {c : Context} {call : ListenerCall} {a : Address} {pageClass : Option PageClass}
  {parameters : Parameters}

theorem name_of_interface? {name : String} {interface : ListenerInterface}
    (h : c.interface? name = some interface) : interface.name = name := by
  simpa using List.find?_some h

/-- What the address of a component says of a call. -/
structure Names (c : Context) (call : ListenerCall) : Prop where
  name : isInterfaceName call.interface.name.toList = true
  /-- The site knows this interface by its name. -/
  known : c.interface? call.interface.name = some call.interface
  path : call.path ≠ ""
  /-- The index of a behavior fits into 32 bits. -/
  behavior : ∀ i ∈ call.behavior, i < Text.wordCount

/-- What handlers addresses say, apart from the class of the page and its parameters. -/
def Addresses (c : Context) : Handler → Prop
  | .render page policy => page.id ≠ none ∧ page.renderCount = none ∧ policy = .auto
  | .listener call => c.Names call
  | _ => False

theorem Names.congr {other : ListenerCall} (hpath : call.path = other.path)
    (hinterface : call.interface = other.interface) (hbehavior : call.behavior = other.behavior)
    (h : c.Names call) : c.Names other :=
  ⟨hinterface ▸ h.name, hinterface ▸ h.known, hpath ▸ h.path, hbehavior ▸ h.behavior⟩

theorem Addresses.congr {other : Handler} (heq : (h == other) = true) (ha : c.Addresses h) :
    c.Addresses other := by
  cases h with
  | render page policy =>
    cases other with
    | render page' policy' =>
      obtain ⟨hpage, hpolicy⟩ := Handler.render_beq_iff.1 heq
      obtain ⟨-, hid, -, -, hcount⟩ := PageSource.beq_iff.1 hpage
      exact ⟨hid ▸ ha.1, hcount ▸ ha.2.1, hpolicy ▸ ha.2.2⟩
    | _ => exact absurd heq Bool.noConfusion
  | listener call =>
    cases other with
    | listener call' =>
      obtain ⟨-, hpath, hinterface, hbehavior⟩ := Handler.listener_beq_iff.1 heq
      exact Names.congr hpath hinterface hbehavior ha
    | _ => exact absurd heq Bool.noConfusion
  | _ => exact ha.elim

/-- What an address asks for on a page of a class, with these parameters. -/
def handlerAt? (c : Context) (a : Address) (pageClass : Option PageClass)
    (parameters : Parameters) : Option Handler :=
  c.handlerFor? (fun renderCount => { id := a.page, pageClass, parameters, renderCount })
    a.component

theorem handler?_of_address {link : PageLink}
    (haddress : link.address = some a) :
    link.handler? c = c.handlerAt? a (some link.pageClass) link.parameters := by
  rw [PageLink.handler?, haddress]
  rfl

/-- What an address asks for, it says. -/
theorem addresses_of_handlerAt? (ha : a.IsSaid)
    (hread : c.handlerAt? a pageClass parameters = some h) :
    c.Addresses h ∧ ∃ renderCount,
      h.page? = some { id := a.page, pageClass, parameters, renderCount } := by
  rw [handlerAt?] at hread
  cases hcomponent : a.component with
  | none =>
    rw [hcomponent] at hread
    cases hread
    exact ⟨⟨ha.something.resolve_right (· hcomponent), rfl, rfl⟩, _, rfl⟩
  | some component =>
    have hsaid := ha.component component hcomponent
    rw [hcomponent, handlerFor?, Option.map_eq_some_iff] at hread
    obtain ⟨interface, hknown, rfl⟩ := hread
    have hname := name_of_interface? hknown
    exact ⟨⟨hname ▸ hsaid.interface, hname.symm ▸ hknown, hsaid.path, hsaid.behavior⟩, _, rfl⟩

/-- A handler that addresses say has one, which its text says. -/
theorem Addresses.exists_address (ha : c.Addresses h) (hpage : h.page? = some page)
    (hlive : page.live = none) (pages : Pages) :
    ∃ a, h.address? pages = some a ∧ a.IsSaid ∧ a.page = page.id := by
  cases h with
  | render page policy =>
    cases hpage
    obtain ⟨id, hid⟩ := Option.ne_none_iff_exists'.1 ha.1
    refine ⟨Address.ofPage id, ?_, Address.isSaid_ofPage id, hid.symm⟩
    rw [Handler.address?, PageLink.idInUrl_of_live hlive, hid, Option.map_some]
  | listener call =>
    cases hpage
    refine ⟨_, rfl, ⟨.inr (Option.some_ne_none _), ?_⟩, PageLink.idInUrl_of_live hlive⟩
    intro component hcomponent
    cases hcomponent
    exact ⟨ha.name, ha.path, ha.behavior⟩
  | _ => exact ha.elim

/-- What may take the place of an id leaves it as it is if it is the same. -/
theorem or_eq_iff {replacement id : Option PageId} :
    replacement.or id = id ↔ ∀ other ∈ replacement, id = some other := by
  cases replacement with
  | none => simp
  | some other => simp [eq_comm]

/-- Where the page id may have been replaced, an address asks for the handler it was written for if
the id, the class and the parameters are those of its page. -/
theorem handlerAt?_address_iff (ha : c.Addresses h) (hpage : h.page? = some page)
    (hlive : page.live = none) (haddress : h.address? pages = some a) (id : Option PageId) :
    (c.handlerAt? { a with page := id } pageClass parameters == some h) = true ↔
      id = page.id ∧ pageClass = page.pageClass ∧ (parameters == page.parameters) = true := by
  cases h with
  | render page policy =>
    cases hpage
    rw [Handler.address?, PageLink.idInUrl_of_live hlive, Option.map_eq_some_iff] at haddress
    obtain ⟨id, -, rfl⟩ := haddress
    show (Handler.render _ _ == Handler.render _ _) = true ↔ _
    rw [Handler.render_beq_iff, PageSource.beq_iff]
    simp [hlive, ha.2.1, ha.2.2]
  | listener call =>
    cases hpage
    cases haddress
    rw [handlerAt?, handlerFor?]
    show ((c.interface? call.interface.name).map _ == _) = true ↔ _
    rw [ha.known, Option.map_some]
    show (Handler.listener _ == Handler.listener _) = true ↔ _
    rw [Handler.listener_beq_iff, PageSource.beq_iff]
    simp [hlive, ListenerCall.componentAddress, PageSource.expectedRenderCount_of_live hlive]
  | _ => exact ha.elim

end Context

/-- Only what addresses say is read from an address. -/
theorem PageLink.addresses_of_handler? {c : Context} {link : PageLink}
    (haddress : ∀ a ∈ link.address, a.IsSaid) (hpage : h.page? = some page)
    (hread : (link.handler? c == some h) = true) : c.Addresses h := by
  cases ha : link.address with
  | none =>
    rw [handler?, ha] at hread
    cases h with
    | render | listener => exact absurd hread Bool.noConfusion
    | _ => cases hpage
  | some a =>
    rw [Context.handler?_of_address ha] at hread
    cases hhandler : c.handlerAt? a (some link.pageClass) link.parameters with
    | none =>
      rw [hhandler] at hread
      exact absurd hread Bool.noConfusion
    | some h' =>
      rw [hhandler, Option.some_beq_some] at hread
      exact (Context.addresses_of_handlerAt? (haddress a ha) hhandler).1.congr hread

/-! ## Requests -/

namespace Request

variable {r : Request} {a : Address} {rest : List NamedValue}

/-- The page id that parameters name. -/
def idIn? (named : List NamedValue) : Option PageId :=
  (named.find? (·.name = pageIdParameter)).bind fun v =>
    Text.signedDecimal32? (Text.trim v.value.toList)

theorem pageIdOverride?_eq (hheader : r.header? pageIdHeader = none) :
    r.pageIdOverride? = idIn? r.url.query := by
  rw [pageIdOverride?, overrideText?, hheader, Url.value?, idIn?]
  cases r.url.query.find? (·.name = pageIdParameter) <;> rfl

theorem address?_of_said (hheader : r.header? pageIdHeader = none) (ha : a.IsSaid)
    (hquery : r.url.query = { name := a.text } :: rest) :
    r.address? = some { a with page := (idIn? rest).or a.page } := by
  have hname : a.text ≠ pageIdParameter := Address.text_ne ha (by decide)
  have hsame : idIn? r.url.query = idIn? rest := by
    rw [idIn?, hquery, List.find?_cons_of_neg (by simpa using hname), idIn?]
  rw [address?, Address.ofUrl?_of_query ha hquery, Option.map_some, pageIdOverride?_eq hheader, hsame]

/-- Where the parameters name no page id, the address is the one in the URL. -/
theorem address?_of_idIn?_none (hheader : r.header? pageIdHeader = none) (ha : a.IsSaid)
    (hquery : r.url.query = { name := a.text } :: rest) (hnone : idIn? rest = none) :
    r.address? = some a := by
  rw [address?_of_said hheader ha hquery, hnone, Option.none_or]

theorem ofUrl?_of_address? (h : r.address? = some a) : ∃ b, Address.ofUrl? r.url = some b ∧
    a = { b with page := r.pageIdOverride?.or b.page } := by
  rw [address?, Option.map_eq_some_iff] at h
  obtain ⟨b, hread, ha⟩ := h
  exact ⟨b, hread, ha.symm⟩

theorem isSaid_of_address? (h : r.address? = some a) : a.IsSaid := by
  obtain ⟨b, hread, rfl⟩ := ofUrl?_of_address? h
  rw [Address.ofUrl?, Option.bind_eq_some_iff] at hread
  obtain ⟨v, -, hread⟩ := hread
  rw [Address.ofParameter?] at hread
  split at hread
  · have hb := Address.isSaid_of_parse? hread
    refine ⟨?_, hb.component⟩
    cases r.pageIdOverride? with
    | none => exact hb.something
    | some id => exact .inl (Option.some_ne_none id)
  · cases hread

/-- A page id that the parameters behind the address name is the one of the request. -/
theorem page_of_idIn? (hheader : r.header? pageIdHeader = none) (h : r.address? = some a) :
    ∀ id ∈ idIn? (r.url.query.drop 1), a.page = some id := by
  obtain ⟨b, hread, rfl⟩ := ofUrl?_of_address? h
  rw [pageIdOverride?_eq hheader]
  cases hquery : r.url.query with
  | nil =>
    rw [Address.ofUrl?, hquery] at hread
    cases hread
  | cons v rest =>
    have hname : v.name ≠ pageIdParameter := by
      intro hname
      rw [Address.ofUrl?, hquery, List.head?_cons, Option.bind_some, Address.ofParameter?, hname,
        show Address.parse? pageIdParameter = none by decide, ite_self] at hread
      cases hread
    intro id hid
    rw [List.drop_one, List.tail_cons] at hid
    rw [idIn?, List.find?_cons_of_neg (by simpa using hname), ← idIn?, hid, Option.some_or]

end Request

/-! ## URLs with an address -/

theorem Mapper.roundTrips_iff_reread {mapper : Mapper} {pages : Pages} {b : Buffer} {h : Handler}
    {url : Url} (hencode : mapper.encode pages h = some url) :
    mapper.RoundTrips pages b h ↔ ((mapper.decode b { url := url.reread }).1 == some h) = true := by
  rw [RoundTrips, hencode, ← Url.parse_text]
  constructor
  · intro hread
    obtain ⟨url', hurl, hread⟩ := hread
    rw [Option.some.injEq] at hurl
    rw [hurl]
    exact hread
  · intro hread
    exact ⟨url, rfl, hread⟩

theorem Url.withPage_address {a : Address} (ha : a.IsSaid) (base : Url) (p : Parameters)
    (encoder : Encoder) :
    base.withPage (some a) p encoder =
      { segments := base.segments ++ (encoder.encode p).segments
        query := base.query ++ { name := a.text } :: (encoder.encode p).query } :=
  withPage_of_text_ne (Address.text_ne ha (by decide)) base p encoder

/-- What is left of a query that begins with an address. -/
theorem Url.filter_address {a : Address} (ha : a.IsSaid) (rest : List NamedValue) :
    ({ name := a.text } :: rest).filter (· ≠ blank) =
      { name := a.text } :: rest.filter (· ≠ blank) := by
  have hname : a.text ≠ "" := Address.text_ne ha (by decide)
  rw [List.filter_cons_of_pos]
  simp [blank, hname]

theorem Request.idIn?_filter (named : List NamedValue) :
    idIn? (named.filter (· ≠ Url.blank)) = idIn? named := by
  rw [idIn?, List.find?_filter, idIn?]
  congr 2
  funext v
  by_cases hname : v.name = pageIdParameter
  · have hv : v ≠ Url.blank := by
      rintro rfl
      exact absurd hname (by decide)
    simp [hname, hv]
  · simp [hname]

/-- The parameters behind an address. -/
theorem Encoder.readParameters_address {url : Url} {a : Address} {rest : List NamedValue}
    (ha : a.IsSaid) (hquery : url.query = { name := a.text } :: rest) (n : Nat) :
    Encoder.standard.readParameters url n = { indexed := url.segments.drop n, named := rest } := by
  rw [readParameters, Address.ofUrl?_of_query ha hquery, Url.remainder, hquery, decode_standard]
  rfl

end StatefulPages
