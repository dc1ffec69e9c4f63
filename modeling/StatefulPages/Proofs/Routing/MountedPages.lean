import Mathlib.Data.List.Perm.Basic
import StatefulPages.Proofs.Routing.AddressSlot
import StatefulPages.Proofs.Routing.Placeholders
import StatefulPages.Proofs.Routing.UrlText

/-!
# Mounted pages from their URLs

The URL of a new page at a mount is read as that page again, unless the URL cannot say all of its
parameters.

* `Mount.SaidByStandard`, `Mount.SaidByPath`: what parameters the URLs of the two encoders say;
* `Mount.roundTrips_iff`: what reading has to give back, for every encoder;
* `Mount.roundTrips_iff_said`: with either encoder a page is read back exactly if its parameters are
  said by its URL.
-/

namespace StatefulPages

/-- A handler is written as a URL, and a request for its text is read as the same handler. -/
def Mapper.RoundTrips (mapper : Mapper) (pages : Pages) (b : Buffer) (h : Handler) : Prop :=
  ∃ url, mapper.encode pages h = some url ∧
    ((mapper.decode b (Request.ofText url.text)).1 == some h) = true

namespace Mount

variable {m : Mount} {c : Context} {url : Url} {p : Parameters}

/-! ## Reading -/

/-- With an address, a link asks for no new page. -/
theorem handlerFor?_ne_bookmarkable (c : Context) (page : Option UInt32 → PageSource)
    (component : Option ComponentAddress) (pageClass : PageClass) (p : Parameters) :
    (c.handlerFor? page component == some (.bookmarkable pageClass p)) = false := by
  cases component with
  | none => rfl
  | some component =>
    rw [Context.handlerFor?]
    cases c.interface? component.interface with
    | none => rfl
    | some interface => rfl

/-- The root of the application is not read as a page at a mount. -/
theorem decode?_of_segments_nil (h : url.segments = []) :
    (m.decode? c { url } == some (.bookmarkable m.pageClass p)) = false := by
  have hfits : m.fits url = false := by
    have hlength : m.segments.length ≠ 0 := by
      rw [Ne, List.length_eq_zero_iff]
      exact m.ne_nil
    simp [fits, h, hlength]
  rw [decode?]
  split
  · rfl
  · rw [link?, if_neg (by rw [hfits]; exact Bool.noConfusion)]
    rfl

/-- What has to hold for a URL below the root to be read as a new page with these parameters. -/
theorem decode?_eq_bookmarkable_iff (h : url.segments ≠ []) (hfits : m.fits url = true) :
    (m.decode? c { url } == some (.bookmarkable m.pageClass p)) = true ↔
      Address.ofUrl? url = none ∧
        (m.encoder.decode (url.remainder m.segments.length false)).indexed = p.indexed ∧
        ((m.encoder.decode (url.remainder m.segments.length false)).named ++
          captures m.segments url.segments).Perm p.named := by
  have hhome : m.takesHome c url = false := by
    simp [takesHome, Url.isEmpty, h]
  rw [decode?, if_neg (by rw [hhome]; exact Bool.noConfusion), link?, if_pos hfits,
    Option.bind_some, PageLink.handler?, Request.address?]
  cases haddress : Address.ofUrl? url with
  | none =>
    rw [Encoder.readParameters, haddress]
    show (m.pageClass == m.pageClass && Parameters.instBEq.beq _ p) = true ↔ _
    rw [beq_self_eq_true, Bool.true_and]
    exact Parameters.beq_iff.trans (by simp)
  | some address =>
    rw [Option.map_some]
    show (c.handlerFor? _ _ == some (.bookmarkable m.pageClass p)) = true ↔ _
    rw [handlerFor?_ne_bookmarkable]
    simp

/-! ## Writing and reading -/

/-- A mount fits the URLs that it writes. -/
theorem fits_fill (m : Mount) (p : Parameters) (rest : List String) (query : List NamedValue) :
    m.fits { segments := (fill m.segments p).1 ++ rest, query } = true := by
  rw [fits, List.length_append, length_fill, Bool.and_eq_true]
  exact ⟨decide_eq_true (Nat.le_add_right ..), all_fits_fill ..⟩

/-- The names of the placeholders of a mount. -/
def placeholders (m : Mount) : List String :=
  names m.segments

/-- The named parameters that no placeholder takes. -/
def others (m : Mount) (p : Parameters) : List NamedValue :=
  p.others m.placeholders

/-- The URL behind the segments of a mount. -/
def tail (m : Mount) (p : Parameters) : Url :=
  (m.encoder.encode { p with named := m.others p }).plainFirst

theorem url_eq (m : Mount) (p : Parameters) :
    m.url none p =
      { segments := (fill m.segments p).1 ++ (m.tail p).segments, query := (m.tail p).query } := by
  rw [url, fill_rest]
  rfl

/-- A new page is read back exactly if the path shows and what stands behind it is read as the
parameters that no placeholder takes. -/
theorem roundTrips_iff (hnames : m.placeholders.Nodup) (c : Context) (pages : Pages) (b : Buffer)
    (p : Parameters) :
    (m.mapper c).RoundTrips pages b (.bookmarkable m.pageClass p) ↔
      (fill m.segments p).1 ++ (m.tail p).segments ≠ [""] ∧
      Address.ofUrl? { m.tail p with query := (m.tail p).query.filter (· ≠ Url.blank) } = none ∧
      let read := m.encoder.decode
        { m.tail p with query := (m.tail p).query.filter (· ≠ Url.blank) }
      read.indexed = p.indexed ∧ (read.named ++ m.placeholders.map p.firstOf).Perm p.named := by
  have hencode : (m.mapper c).encode pages (.bookmarkable m.pageClass p) = some (m.url none p) := by
    simp [mapper, Mapper.ofRequests, PageLink.ofHandler?]
  have hread : (m.mapper c).RoundTrips pages b (.bookmarkable m.pageClass p) ↔
      (m.decode? c { url := (m.url none p).reread } == some (.bookmarkable m.pageClass p)) = true := by
    rw [Mapper.RoundTrips, hencode, ← Url.parse_text]
    constructor
    · intro h
      obtain ⟨url, hurl, h⟩ := h
      rw [Option.some.injEq] at hurl
      rw [hurl]
      exact h
    · intro h
      exact ⟨_, rfl, h⟩
  rw [hread, url_eq, Url.reread]
  by_cases hblank : (fill m.segments p).1 ++ (m.tail p).segments = [""]
  · rw [decode?_of_segments_nil (by rw [if_pos hblank])]
    simp [hblank]
  · simp only [if_neg hblank]
    have hlength := length_fill m.segments p
    have hne : (fill m.segments p).1 ++ (m.tail p).segments ≠ [] := by
      intro hnil
      rw [List.append_eq_nil_iff, ← List.length_eq_zero_iff, hlength, List.length_eq_zero_iff] at hnil
      exact m.ne_nil hnil.1
    have hdrop : ((fill m.segments p).1 ++ (m.tail p).segments).drop m.segments.length =
        (m.tail p).segments := List.drop_left' hlength
    rw [decode?_eq_bookmarkable_iff hne (fits_fill ..), captures_fill hnames]
    simp only [Url.remainder, hdrop]
    exact (and_iff_right hblank).symm

/-! ## The two encoders -/

/-- What parameters the URL of a page says, with the standard encoder. -/
structure SaidByStandard (m : Mount) (p : Parameters) : Prop where
  /-- Each placeholder has one value. -/
  single : ∀ name ∈ m.placeholders, (p.values name).length = 1
  /-- Of every other parameter the text shows something. -/
  shown : ∀ v ∈ m.others p, ¬ (v.name = "" ∧ v.value = "")
  /-- Another parameter than one that reads as an address can stand in front. -/
  plain : m.others p = [] ∨ ∃ v ∈ m.others p, v.isAddress = false
  /-- The path is not a single empty segment. -/
  path : ¬ ((∃ name, m.segments = [.placeholder name] ∧ p.get? name = some "") ∧ p.indexed = [])

/-- What parameters the URL of a page says, with the encoder that writes them into the path. -/
structure SaidByPath (m : Mount) (p : Parameters) : Prop where
  /-- Each placeholder has one value. -/
  single : ∀ name ∈ m.placeholders, (p.values name).length = 1
  /-- Indexed parameters are not written. -/
  unindexed : p.indexed = []
  /-- Every other parameter has a name. -/
  named : ∀ v ∈ m.others p, v.name ≠ ""
  /-- The path is not a single empty segment. -/
  path : ¬ ((∃ name, m.segments = [.placeholder name] ∧ p.get? name = some "") ∧ m.others p = [])

theorem getD_get?_eq_blank_iff {name : String} (h : (p.values name).length = 1) :
    (p.get? name).getD "" = "" ↔ p.get? name = some "" := by
  obtain ⟨value, hvalue⟩ := List.length_eq_one_iff.1 h
  rw [← Parameters.head?_values, hvalue, List.head?_cons, Option.getD_some, Option.some.injEq]

theorem fill_append_ne_blank_iff (h : ∀ name ∈ m.placeholders, (p.values name).length = 1)
    (rest : List String) :
    (fill m.segments p).1 ++ rest ≠ [""] ↔
      ¬ ((∃ name, m.segments = [.placeholder name] ∧ p.get? name = some "") ∧ rest = []) := by
  rw [Ne, fill_append_eq_blank_iff m.ne_nil m.isPart]
  apply not_congr
  apply and_congr_left'
  apply exists_congr
  intro name
  apply and_congr_right
  intro hsegments
  have hname : name ∈ m.placeholders := by
    rw [placeholders, hsegments]
    exact List.mem_cons_self
  exact getD_get?_eq_blank_iff (h name hname)

theorem blank_iff {v : NamedValue} : v ≠ Url.blank ↔ ¬ (v.name = "" ∧ v.value = "") := by
  cases v
  simp [Url.blank]

theorem roundTrips_iff_saidByStandard (hencoder : m.encoder = .standard)
    (hnames : m.placeholders.Nodup) (c : Context) (pages : Pages) (b : Buffer) (p : Parameters) :
    (m.mapper c).RoundTrips pages b (.bookmarkable m.pageClass p) ↔ m.SaidByStandard p := by
  have htail : m.tail p = Url.plainFirst { segments := p.indexed, query := m.others p } := by
    rw [tail, hencoder]
    rfl
  have hsegments : (m.tail p).segments = p.indexed := by rw [htail, Url.segments_plainFirst]
  have hquery : (m.tail p).query.Perm (m.others p) := by
    rw [htail]
    exact Url.query_plainFirst_perm _
  have hparameters : ((m.tail p).query.filter (· ≠ Url.blank) ++
        m.placeholders.map p.firstOf).Perm p.named ↔
      (∀ name ∈ m.placeholders, (p.values name).length = 1) ∧
        ∀ v ∈ m.others p, ¬ (v.name = "" ∧ v.value = "") := by
    rw [((hquery.filter _).append_right _).congr_left, others,
      Parameters.perm_others_firsts_iff hnames]
    simp only [decide_eq_true_eq, blank_iff]
  rw [roundTrips_iff hnames, hencoder, hsegments, Encoder.decode_standard]
  show _ ∧ _ ∧ (m.tail p).segments = p.indexed ∧ _ ↔ _
  rw [and_iff_right hsegments]
  show _ ∧ _ ∧ List.Perm ((m.tail p).query.filter _ ++ _) _ ↔ _
  rw [hparameters]
  -- what is shown is not dropped, so that the first parameter is still in front
  have haddress (hshown : ∀ v ∈ m.others p, ¬ (v.name = "" ∧ v.value = "")) :
      Address.ofUrl? { m.tail p with query := (m.tail p).query.filter (· ≠ Url.blank) } = none ↔
        m.others p = [] ∨ ∃ v ∈ m.others p, v.isAddress = false := by
    have hkeep : (m.tail p).query.filter (· ≠ Url.blank) = (m.tail p).query := by
      rw [List.filter_eq_self]
      intro v hv
      exact decide_eq_true (blank_iff.2 (hshown v (hquery.subset hv)))
    rw [hkeep, htail]
    exact Url.ofUrl?_plainFirst_eq_none_iff _
  constructor
  · intro h
    obtain ⟨hpath, hplain, hsingle, hshown⟩ := h
    exact ⟨hsingle, hshown, (haddress hshown).1 hplain, (fill_append_ne_blank_iff hsingle _).1 hpath⟩
  · intro h
    exact ⟨(fill_append_ne_blank_iff h.single _).2 h.path, (haddress h.shown).2 h.plain, h.single,
      h.shown⟩

theorem roundTrips_iff_saidByPath (hencoder : m.encoder = .path)
    (hnames : m.placeholders.Nodup) (c : Context) (pages : Pages) (b : Buffer) (p : Parameters) :
    (m.mapper c).RoundTrips pages b (.bookmarkable m.pageClass p) ↔ m.SaidByPath p := by
  have htail : m.tail p = { segments := (m.others p).flatMap fun v => [v.name, v.value] } := by
    rw [tail, hencoder]
    rfl
  have hnil : ((m.others p).flatMap fun v => [v.name, v.value]) = [] ↔ m.others p = [] := by
    cases m.others p <;> simp
  have hparameters : ((m.others p).filter (·.name ≠ "") ++
        m.placeholders.map p.firstOf).Perm p.named ↔
      (∀ name ∈ m.placeholders, (p.values name).length = 1) ∧ ∀ v ∈ m.others p, v.name ≠ "" := by
    rw [others, Parameters.perm_others_firsts_iff hnames]
    simp
  rw [roundTrips_iff hnames, hencoder, htail]
  show _ ∧ _ ∧ [] = p.indexed ∧ List.Perm (Encoder.pairs _ ++ [] ++ _) _ ↔ _
  rw [List.append_nil, Encoder.pairs_flatMap, hparameters]
  constructor
  · intro h
    obtain ⟨hpath, -, hindexed, hsingle, hnamed⟩ := h
    rw [fill_append_ne_blank_iff hsingle, hnil] at hpath
    exact ⟨hsingle, hindexed.symm, hnamed, hpath⟩
  · intro h
    refine ⟨?_, rfl, h.unindexed.symm, h.single, h.named⟩
    rw [fill_append_ne_blank_iff h.single, hnil]
    exact h.path

/-- With either encoder, a page at a mount is read back from its URL exactly if the URL says its
parameters. -/
theorem roundTrips_iff_said (hnames : m.placeholders.Nodup) (c : Context) (pages : Pages)
    (b : Buffer) (p : Parameters) :
    (m.encoder = .standard →
      ((m.mapper c).RoundTrips pages b (.bookmarkable m.pageClass p) ↔ m.SaidByStandard p)) ∧
    (m.encoder = .path →
      ((m.mapper c).RoundTrips pages b (.bookmarkable m.pageClass p) ↔ m.SaidByPath p)) :=
  ⟨fun hencoder => roundTrips_iff_saidByStandard hencoder hnames c pages b p,
    fun hencoder => roundTrips_iff_saidByPath hencoder hnames c pages b p⟩

/-- The pages of users, by their ids. -/
def ofUsers (encoder : Encoder) : Mount where
  segments := [.literal "users", .placeholder "id"]
  pageClass := "User"
  encoder := encoder
  ne_nil := by decide
  isPart := by decide

/-- A parameter that reads as an address is read back behind another one; alone it is not. -/
theorem roundTrips_iff_said_of_users :
    (ofUsers .standard).placeholders.Nodup ∧ (ofUsers .path).placeholders.Nodup ∧
    ((ofUsers .standard).mapper { home := "Home" }).RoundTrips .empty []
      (.bookmarkable "User" { named := [⟨"id", "42"⟩, ⟨"5", ""⟩, ⟨"x", "1"⟩] }) ∧
    ¬ ((ofUsers .standard).mapper { home := "Home" }).RoundTrips .empty []
      (.bookmarkable "User" { named := [⟨"id", "42"⟩, ⟨"5", ""⟩] }) ∧
    ((ofUsers .path).mapper { home := "Home" }).RoundTrips .empty []
      (.bookmarkable "User" { named := [⟨"id", "42"⟩, ⟨"5", ""⟩] }) := by
  have hstandard : (ofUsers .standard).placeholders.Nodup := by decide
  have hpath : (ofUsers .path).placeholders.Nodup := by decide
  refine ⟨hstandard, hpath, ?_, ?_, ?_⟩
  · refine ((roundTrips_iff_said hstandard _ _ _ _).1 rfl).2 ⟨by decide, by decide, ?_, ?_⟩
    · exact .inr ⟨⟨"x", "1"⟩, by decide, by decide⟩
    · intro h
      obtain ⟨⟨name, hname, -⟩, -⟩ := h
      have hlength : 2 = 1 := congrArg List.length hname
      exact absurd hlength (by decide)
  · intro h
    have hsaid := ((roundTrips_iff_said hstandard _ _ _ _).1 rfl).1 h
    exact absurd hsaid.plain (by decide)
  · refine ((roundTrips_iff_said hpath _ _ _ _).2 rfl).2 ⟨by decide, rfl, by decide, ?_⟩
    intro h
    obtain ⟨⟨name, hname, -⟩, -⟩ := h
    have hlength : 2 = 1 := congrArg List.length hname
    exact absurd hlength (by decide)

end Mount

end StatefulPages
