import StatefulPages.Proofs.Cycle.Turns
import StatefulPages.Proofs.Routing.SitePages
import StatefulPages.Proofs.Storage.StoreSessions
import StatefulPages.Scripted.Script
import StatefulPages.Storage.MemoryStore

/-!
# Listeners from their URLs

A site without mounts writes the URL of a listener on a page that is there. Such a URL is read as a
call of that listener on a page with its id and render count, whichever mapper wrote it. If the session
has the page as it was, a request for the URL calls the listener before other handlers run; if the page
was rendered since, it is rendered instead.

* `Site.decode_ofPage`: what the URL of a listener is read as;
* `Cycle.resolve_of_has`: how the page is found that the URL describes;
* `Cycle.callsFirst_of_has`, `Cycle.rendersOnly_of_keeps`: what a request does with the page;
* `Cycle.process_listenerUrl`: what a request for the URL does.
-/

namespace StatefulPages

/-! ## What is read -/

/-- The description of a page by its id and its render count, and by a class if one is given. -/
def PageSource.described (page : Page) (pageClass : Option PageClass) (p : Parameters) :
    PageSource where
  id := some page.id
  pageClass := pageClass
  parameters := p
  renderCount := some page.renderCount

/-- The address in the URL of a listener on a live page. -/
def ListenerCall.addressOn (call : ListenerCall) (page : Page) : Address where
  page := some page.id
  component := some { renderCount := some page.renderCount, interface := call.interface.name
                      path := call.path, behavior := call.behavior }

variable {context : Context} {live : Pages} {ref : PageRef} {call : ListenerCall}

theorem PageLink.idInUrl_ofPage (hstateful : (live.get ref).stateless = false) :
    idInUrl live (.ofPage live ref) = some (live.get ref).id := by
  rw [idInUrl, PageSource.isStateless]
  show (if (live.get ref).stateless = true then none else some (live.get ref).id) = _
  rw [hstateful]
  rfl

theorem PageLink.acceptedClass?_ofPage {accepts : PageClass → Bool} {mustBeBookmarkable : Bool}
    {pageClass : PageClass}
    (h : acceptedClass? live accepts mustBeBookmarkable (.ofPage live ref) = some pageClass) :
    accepts pageClass = true ∧ pageClass = (live.get ref).pageClass := by
  rw [acceptedClass?] at h
  change (if _ then some (live.get ref).pageClass else none) = some pageClass at h
  split at h
  · rename_i haccepts
    cases h
    exact ⟨(Bool.and_eq_true_iff.1 haccepts).1, rfl⟩
  · cases h

theorem Handler.address?_ofPage (hstateful : (live.get ref).stateless = false)
    (hpage : call.page = .ofPage live ref) :
    Handler.address? live (.listener call) = some (call.addressOn (live.get ref)) := by
  rw [address?, hpage, PageLink.idInUrl_ofPage hstateful, ListenerCall.componentAddress, hpage]
  rfl

theorem Request.idIn?_eq_none {named : List NamedValue}
    (h : ∀ v ∈ named, v.name ≠ pageIdParameter) : idIn? named = none := by
  have hfind : named.find? (·.name = pageIdParameter) = none := by simpa using h
  rw [idIn?, hfind, Option.bind_none]

namespace Context

theorem Names.isSaid_addressOn (hnames : context.Names call) (page : Page) :
    (call.addressOn page).IsSaid where
  something := .inl (Option.some_ne_none _)
  component := by
    intro component hcomponent
    cases hcomponent
    exact ⟨hnames.name, hnames.path, hnames.behavior⟩

theorem Names.handlerAt?_addressOn (hnames : context.Names call) (page : Page)
    (pageClass : Option PageClass) (p : Parameters) :
    context.handlerAt? (call.addressOn page) pageClass p =
      some (.listener { call with page := .described page pageClass p }) := by
  rw [handlerAt?, ListenerCall.addressOn, handlerFor?, hnames.known]
  rfl

end Context

namespace Site

/-- The URL of a listener on a live page is read as a call of the listener on the page that the address
describes. -/
theorem decode_ofPage (hmarks : context.marks.Nodup)
    (hstateful : (live.get ref).stateless = false)
    (hparameters : ∀ v ∈ (live.get ref).parameters.named, v.name ≠ Request.pageIdParameter)
    (hpage : call.page = .ofPage live ref) (hnames : context.Names call) :
    ∃ url pageClass p, (mapper { context }).encode live (.listener call) = some url ∧
      (∀ k ∈ pageClass, k = (live.get ref).pageClass) ∧
      ∀ (b : Buffer) (r : Request), r.url = Url.parse url.text →
        r.header? Request.pageIdHeader = none → b.response? r.url = none →
        (mapper { context }).decode b r =
          (some (.listener { call with page := .described (live.get ref) pageClass p }), b) := by
  have haddress := Handler.address?_ofPage hstateful hpage
  have hsaid := hnames.isSaid_addressOn (live.get ref)
  cases hclass : PageLink.acceptedClass? live context.isRegistered true call.page with
  | some pageClass =>
    -- written as a URL of the class
    have hencode := encode_of_class (h := .listener call) rfl hclass haddress hsaid
    rw [hpage] at hclass
    obtain ⟨hregistered, hsame⟩ := PageLink.acceptedClass?_ofPage hclass
    have hnone : Request.idIn? (call.page.parameters.named.filter (· ≠ Url.blank)) = none := by
      rw [Request.idIn?_filter, hpage]
      exact Request.idIn?_eq_none hparameters
    refine ⟨_, some pageClass, { indexed := call.page.parameters.indexed
                                 named := call.page.parameters.named.filter (· ≠ Url.blank) },
      hencode, ?_, ?_⟩
    · intro k hk
      cases hk
      exact hsame
    · intro b r hurl hheader hbuffer
      rw [Url.parse_text, Url.reread, if_neg (by simp), Url.filter_address hsaid] at hurl
      have hquery := congrArg Url.query hurl
      rw [decode_eq hmarks hbuffer,
        Context.read?_bookmarkable hmarks hregistered (congrArg Url.segments hurl),
        Context.handler?_of_address (Request.address?_of_idIn?_none hheader hsaid hquery hnone),
        Encoder.readParameters_address hsaid hquery, hnames.handlerAt?_addressOn, hurl]
      rfl
  | none =>
    -- written as a URL of the page instance
    have hid : PageLink.idInUrl live call.page = some (live.get ref).id := by
      rw [hpage, PageLink.idInUrl_ofPage hstateful]
    have hencode := encode_of_instance (c := context) (h := .listener call) rfl hclass
      (instanceAddress?_eq rfl haddress hid)
    refine ⟨_, none, {}, hencode, ?_, ?_⟩
    · intro k hk
      cases hk
    · intro b r hurl hheader hbuffer
      rw [Url.parse_text, Url.reread, if_neg (by simp), Url.filter_address hsaid] at hurl
      have hread := Request.address?_of_idIn?_none hheader hsaid (congrArg Url.query hurl) rfl
      rw [decode_eq hmarks hbuffer,
        Context.read?_pageInstance hmarks (congrArg Url.segments hurl) hread rfl,
        hnames.handlerAt?_addressOn]

end Site

/-! ## What is done -/

namespace Cycle

variable {σ : Type} [SessionStore σ] {c : Cycle} {s : CycleState σ} {page known : Page}
  {pageClass : Option PageClass} {p : Parameters} {call : ListenerCall}

/-! ### Pages of the session -/

/-- The session has a page in the store: its bytes are read there. -/
def Has (c : Cycle) (page : Page) (store : σ) : Prop :=
  ∃ data, c.application.serialize page = some data ∧
    (SessionStore.load store c.session page.id).1 = some data

/-- The session has a page in the store, and still has it when it has been read. -/
structure Keeps (c : Cycle) (page : Page) (store : σ) : Prop where
  has : c.Has page store
  still : c.Has page (SessionStore.load store c.session page.id).2

/-- A store in memory loses no page that is read. -/
theorem keeps_of_memory {store : MemoryStore} (h : c.Has page store) : c.Keeps page store :=
  ⟨h, h⟩

/-- Nor does a store on disk that is in order. -/
theorem keeps_of_inOrder {ids : List SessionId} {place : Location} {store : DiskStore}
    (horder : store.InOrder ids place) (hown : store.folder.OwnFolders ids)
    (h : c.Has page store) : c.Keeps page store := by
  obtain ⟨data, hserialize, hload⟩ := h
  obtain ⟨next, hnext, horder', haged, hfolder⟩ := horder.load hown c.session page.id
  obtain ⟨last, hlast, -⟩ := horder'.load (hfolder.symm ▸ hown) c.session page.id
  refine ⟨⟨data, hserialize, hload⟩, data, hserialize, ?_⟩
  change (store.load c.session page.id).1 = some data at hload
  show ((store.load c.session page.id).2.load c.session page.id).1 = some data
  rw [hnext] at hload ⊢
  rw [hlast, haged]
  exact hload

/-- The state in which a page has been read, as a new object. -/
def withRead (c : Cycle) (page : Page) (s : CycleState σ) : CycleState σ :=
  { s with store := (SessionStore.load s.store c.session page.id).2, pages := s.pages.add page }

theorem page_withRead (c : Cycle) (page : Page) (s : CycleState σ) :
    (c.withRead page s).page s.pages.next = page :=
  Heap.get_add ..

theorem isOfClass_of_forall {source : PageSource}
    (hclass : ∀ k ∈ source.pageClass, k = page.pageClass) : isOfClass source page = true := by
  rw [isOfClass]
  cases hsource : source.pageClass with
  | none => rfl
  | some k => exact decide_eq_true (hclass k hsource).symm

section

variable (hlossless : c.application.Lossless) (hhas : c.Has page s.store) (htouched : s.touched = [])

include hlossless hhas htouched

theorem find_of_has : c.find page.id s = (some s.pages.next, c.withRead page s) := by
  obtain ⟨data, hserialize, hload⟩ := hhas
  rw [find, htouched, List.find?_nil]
  generalize hstore : SessionStore.load s.store c.session page.id = loaded at hload
  obtain ⟨_, store⟩ := loaded
  cases hload
  simp only [Option.bind_some, hlossless page data hserialize, withRead, hstore, htouched]

/-- A page that is described is found, and is stale if it was rendered since. -/
theorem resolve_of_has (hid : page.id = known.id) (hclass : ∀ k ∈ pageClass, k = page.pageClass)
    (p : Parameters) :
    c.resolve (.described known pageClass p) s =
      if page.renderCount = known.renderCount then
        (.ok { page := s.pages.next, created := false }, c.withRead page s)
      else (.error (.stale page.id known.renderCount page.renderCount), c.withRead page s) := by
  have hfind := find_of_has hlossless hhas htouched
  have hpage := c.page_withRead page s
  simp only [resolve, PageSource.described, ← hid, hfind]
  rw [Option.filter_some, hpage, if_pos (isOfClass_of_forall hclass)]
  dsimp only
  rw [Option.filter_some, hpage]
  by_cases hcount : page.renderCount = known.renderCount
  · rw [if_pos hcount, if_neg (by simp [hcount])]
  · rw [if_neg hcount, if_pos (by simpa using Ne.symm hcount)]

end

/-! ### Requests for a listener -/

/-- Indicates a state in which the listener of a call begins on a page that was read: the handler of the
call has begun and no other, and no other listener was called. -/
structure Begins (c : Cycle) (call : ListenerCall) (page : Page) (s begun : CycleState σ) : Prop where
  object : begun.page s.pages.next = { page with frozen := c.request.isAjax || page.frozen }
  trace : ∃ ready, begun.trace = .started (.listener call) :: (ready ++ [.called s.pages.next page.id
      call.path call.behavior call.interface (c.request.isAjax || page.frozen)]) ∧
    ∀ e ∈ ready, e.isQuiet = true

/-- The first that a request does is to call a listener on a page that was read, and it is done with the
call before other handlers have their turns. -/
def CallsFirst (c : Cycle) (call : ListenerCall) (page : Page) (listener : Listener)
    (s : CycleState σ) : Prop :=
  ∃ begun, c.Begins call page s begun ∧ ∀ n,
    c.process n s.fresh = c.goOn n (c.endCall call s.pages.next page.frozen
      ((listener call.interface).run c begun)) ∧
    ∀ result t, c.process n s.fresh = some (result, t) → begun.TurnsTo t

/-- All that a request does is to render a page that was read. -/
def RendersOnly (c : Cycle) (call : ListenerCall) (page : Page) (s : CycleState σ) : Prop :=
  ∃ shown, shown.trace = [.started (.listener call)] ∧
    (∃ ref, shown.touched = [ref] ∧ shown.page ref = page) ∧
    ∀ n, c.process n s.fresh =
      some (.ok (.rendered page.id page.pageClass .auto), c.finish shown)

omit [SessionStore σ] in
theorem begins_readyCall {found : CycleState σ} (hfound : found.page s.pages.next = page)
    (htrace : found.trace = [.started (.listener call)]) :
    c.Begins call page s ((c.readyCall call s.pages.next found).record (.called s.pages.next page.id
      call.path call.behavior call.interface (c.request.isAjax || page.frozen))) where
  object := by
    rw [← hfound]
    exact c.page_readyCall call s.pages.next found
  trace := by
    obtain ⟨ready, hready, hquiet⟩ := c.quietTo_readyCall call s.pages.next found
    refine ⟨ready, ?_, hquiet⟩
    show (c.readyCall call s.pages.next found).trace ++ _ = _
    rw [hready, htrace]
    rfl

/-- When the listener is done, only what belongs to its call is left of the turn. -/
theorem callsFirst_of_process {listener : Listener} {begun : CycleState σ}
    (hbegins : c.Begins call page s begun)
    (hprocess : ∀ n, c.process n s.fresh = c.goOn n (c.endCall call s.pages.next page.frozen
      ((listener call.interface).run c begun))) :
    c.CallsFirst call page listener s := by
  refine ⟨begun, hbegins, fun n => ⟨hprocess n, ?_⟩⟩
  intro result t hresult
  rw [hprocess n] at hresult
  have hrun := (listener call.interface).quietTo_run c begun
  have hend := c.quietTo_endCall call s.pages.next page.frozen ((listener call.interface).run c begun)
  exact (hrun.trans hend).trans_turnsTo (c.turnsTo_goOn hresult)

section

variable (hdecode : c.mapper.decode s.buffer c.request = (some (.listener call), s.buffer))
  (hcall : call.page = .described known pageClass p) (hlossless : c.application.Lossless)
  (hid : page.id = known.id) (hclass : ∀ k ∈ pageClass, k = page.pageClass)

include hdecode hcall hlossless hid hclass

/-- A request calls the listener of the component that the page has, if the page is as it was. -/
theorem callsFirst_of_has (hhas : c.Has page s.store) (hcount : page.renderCount = known.renderCount)
    {component : Component} {listener : Listener}
    (hcomponent : c.application.component? (s.pages.add page) s.pages.next call.path = some component)
    (howner : component.owner = some page.id)
    (hlistener : component.listener? call.behavior = some listener) :
    c.CallsFirst call page listener s := by
  let started := s.fresh.record (.started (.listener call))
  let found := c.withRead page started
  have hfound : found.page s.pages.next = page := c.page_withRead page started
  have hfind : c.call call started = c.callOn call s.pages.next found := by
    rw [Cycle.call, hcall, resolve_of_has (s := started) hlossless hhas rfl hid hclass, if_pos hcount]
    dsimp only
    rw [if_neg (by simp)]
    rfl
  have howner' : component.owner = some (found.page s.pages.next).id := by rw [hfound, howner]
  have hcallOn := callOn_eq (s := found) hcomponent howner' hlistener
  have hready := c.page_readyCall call s.pages.next found
  rw [runListener, hready, hfound] at hcallOn
  refine callsFirst_of_process (begins_readyCall hfound rfl) fun n => ?_
  calc
    c.process n s.fresh = c.goOn n (c.call call started) := c.process_eq_goOn s.fresh hdecode n
    _ = c.goOn n (c.callOn call s.pages.next found) := congrArg (c.goOn n) hfind
    _ = _ := congrArg (c.goOn n) hcallOn

/-- A request renders a page that was rendered since. -/
theorem rendersOnly_of_keeps (hkeeps : c.Keeps page s.store)
    (hcount : page.renderCount ≠ known.renderCount) : c.RendersOnly call page s := by
  let started := s.fresh.record (.started (.listener call))
  let found := c.withRead page started
  have hstale : c.call call started =
      (.error (.stale page.id known.renderCount page.renderCount), found) := by
    rw [Cycle.call, hcall, resolve_of_has (s := started) hlossless hkeeps.has rfl hid hclass,
      if_neg hcount]
  -- the page is looked up once more, and read again, since it was not touched
  have hpage := c.page_withRead page found
  have hsettle := c.settle_of_stale found (find_of_has (s := found) hlossless hkeeps.still rfl)
    known.renderCount page.renderCount
  rw [hpage] at hsettle
  refine ⟨(c.withRead page found).touch found.pages.next, rfl, ⟨found.pages.next, rfl, hpage⟩, ?_⟩
  intro n
  calc
    c.process n s.fresh = c.goOn n (c.call call started) := c.process_eq_goOn s.fresh hdecode n
    _ = c.goOn n (.error (.stale page.id known.renderCount page.renderCount), found) :=
      congrArg (c.goOn n) hstale
    _ = _ := c.goOn_of_settle hsettle rfl n

end

/-- Indicates that a request of a site without mounts is for the URL of this text, and that nothing but
the URL says which page it is for or answers it. -/
structure IsFor (c : Cycle) (context : Context) (text : String) (b : Buffer) : Prop where
  mapper : c.mapper = Site.mapper { context }
  url : c.request.url = Url.parse text
  header : c.request.header? Request.pageIdHeader = none
  buffer : b.response? c.request.url = none

/-- A site without mounts has a URL for every listener that addresses say on a page that is not
stateless and has no parameter that names a page id. A request for it, in a session that has a page with
the id and the class in its store, calls the listener of the component that the page has at the path, if
the page has been rendered as often, and else only renders the page. -/
theorem process_listenerUrl (hmarks : context.marks.Nodup)
    (issuer : Cycle) (hissuer : issuer.mapper = Site.mapper { context })
    (issued : CycleState σ) (ref : PageRef) (hstateful : (issued.page ref).stateless = false)
    (hparameters : ∀ v ∈ (issued.page ref).parameters.named, v.name ≠ Request.pageIdParameter)
    (hpage : call.page = .ofPage issued.pages ref) (hnames : context.Names call) :
    ∃ url source, issuer.urlFor issued (.listener call) = some url ∧
      ∀ (c : Cycle) (s : CycleState σ) (page : Page), c.IsFor context url.text s.buffer →
        c.application.Lossless → c.Keeps page s.store → page.id = (issued.page ref).id →
        page.pageClass = (issued.page ref).pageClass →
        (page.renderCount = (issued.page ref).renderCount → ∀ component listener,
          c.application.component? (s.pages.add page) s.pages.next call.path = some component →
          component.owner = some page.id → component.listener? call.behavior = some listener →
          c.CallsFirst { call with page := source } page listener s) ∧
        (page.renderCount ≠ (issued.page ref).renderCount →
          c.RendersOnly { call with page := source } page s) := by
  obtain ⟨url, pageClass, p, hencode, hclass, hread⟩ :=
    Site.decode_ofPage hmarks hstateful hparameters hpage hnames
  rw [← hissuer] at hencode
  refine ⟨url, .described (issued.page ref) pageClass p, hencode, ?_⟩
  intro c s page hfor hlossless hkeeps hid hsame
  have hdecode := hread s.buffer c.request hfor.url hfor.header hfor.buffer
  rw [← hfor.mapper] at hdecode
  have hclass' : ∀ k ∈ pageClass, k = page.pageClass := by
    intro k hk
    rw [hclass k hk, hsame]
    rfl
  constructor
  · intro hcount component listener hcomponent howner hlistener
    exact callsFirst_of_has hdecode rfl hlossless hid hclass' hkeeps.has hcount hcomponent howner
      hlistener
  · intro hcount
    exact rendersOnly_of_keeps hdecode rfl hlossless hid hclass' hkeeps hcount

end Cycle

/-! ## A page with a form -/

theorem Page.toBytes_ne_nil (page : Page) : page.toBytes ≠ [] := by
  intro hnil
  have hread := page.ofBytes?_toBytes
  rw [hnil] at hread
  cases hread

/-- A page that was stored in memory is there. -/
theorem MemoryStore.load_store (s : MemoryStore) (session : SessionId) (page : PageId)
    {data : List UInt8} (hdata : data ≠ []) :
    (s.store session page data).load session page = some data := by
  have hnone : (newest (s.limit - 1) (without page (s.pages session))).find? (·.1 = page) = none := by
    rw [List.find?_eq_none]
    intro kept hkept
    have hwithout := List.mem_of_mem_drop hkept
    simpa using List.of_mem_filter hwithout
  rw [store, if_neg hdata, load, pages, Keyed.get?_set_self, Option.getD_some, List.find?_append,
    hnone]
  simp

namespace Cycle

/-- An application of which the pages have a form. -/
def formScript : Script :=
  [("User", { components := [{ path := "form", behaviors := 1, actions := [.bump] }] })]

/-- A page with a form. -/
def formPage : Page where
  id := 5
  pageClass := "User"
  parameters := { named := [⟨"tab", "2"⟩] }
  renderCount := 3
  bookmarkable := true

/-- A call of the behavior of the form on the first page object. -/
def formCall : ListenerCall where
  page := .ofState 0 formPage
  path := "form"
  interface := ⟨"IBehaviorListener", false⟩
  behavior := some 0

/-- The requests of a session of the application. -/
def formCycle (request : Request) : Cycle where
  request := request
  mapper := Site.mapper { context := { home := "Home", classes := ["User"] } }
  application := formScript.application
  session := "s"

/-- The state of the session when it has stored a page. -/
def formState (page : Page) : CycleState MemoryStore where
  pages := Heap.empty.add formPage
  store := (MemoryStore.ofLimit 10).store "s" page.id page.toBytes

/-- A request calls the behavior of the form on the page as it was stored, and renders the page if it
was rendered once more. -/
theorem process_listenerUrl_of_form : ∃ url source,
    (formCycle (Request.ofText "")).urlFor (formState formPage) (.listener formCall) = some url ∧
    (formCycle (Request.ofText url.text)).CallsFirst { formCall with page := source } formPage
      (ScriptedComponent.listener { path := "form", behaviors := 1, actions := [.bump] } 1 (some 0))
      (formState formPage) ∧
    (formCycle (Request.ofText url.text)).RendersOnly { formCall with page := source }
      { formPage with renderCount := 4 } (formState { formPage with renderCount := 4 }) := by
  have hnames : ({ home := "Home", classes := ["User"] } : Context).Names formCall :=
    ⟨by decide, by decide, by decide, by decide⟩
  obtain ⟨url, source, hurl, hprocess⟩ := process_listenerUrl (by decide)
    (formCycle (Request.ofText "")) rfl (formState formPage) 0 rfl (by decide) rfl hnames
  have hfor : (formCycle (Request.ofText url.text)).IsFor { home := "Home", classes := ["User"] }
      url.text [] := ⟨rfl, rfl, rfl, rfl⟩
  have hlossless := formScript.lossless_application
  have hkeeps (page : Page) (hclass : page.pageClass = "User") :
      (formCycle (Request.ofText url.text)).Keeps page (formState page).store := by
    have hserialize : formScript.serialize page = some page.toBytes := by
      rw [Script.serialize, hclass]
      rfl
    have hload := MemoryStore.load_store (.ofLimit 10) "s" page.id page.toBytes_ne_nil
    exact keeps_of_memory ⟨page.toBytes, hserialize, hload⟩
  refine ⟨url, source, hurl, ?_, ?_⟩
  · obtain ⟨hcall, -⟩ := hprocess _ (formState formPage) formPage hfor hlossless
      (hkeeps _ rfl) rfl rfl
    exact hcall rfl _ _ rfl rfl rfl
  · obtain ⟨-, hrender⟩ := hprocess _ (formState { formPage with renderCount := 4 })
      { formPage with renderCount := 4 } hfor hlossless (hkeeps _ rfl) rfl rfl
    exact hrender (by decide)

end Cycle

end StatefulPages
