import StatefulPages.Proofs.Routing.LongestMount
import StatefulPages.Proofs.Routing.ReplayedResponses

/-!
# Redirects that are followed

A browser that is sent on to a URL asks for its text, which need not be read as that URL again.

* `Mount.decode_followed_home`: the root of the application is sent on to the mount of the home page,
  and the page is found there, unless the path of the mount is written as the root itself;
* `Site.decode_followed`: a response that was buffered for a URL is replayed to a browser that is sent
  on to it, unless the text of the URL shows nothing of a parameter.
-/

namespace StatefulPages

/-! ## To the mount of the home page -/

namespace Mount

variable {m : Mount} {c : Context} {path : String} {encoder : Encoder}

/-- What is mounted at a path is so with the standard encoder, and is sent the requests for the home
page. -/
theorem options_of_atPath {pageClass : PageClass} (h : atPath path pageClass = .ok m) :
    m.pageClass = pageClass ∧ m.encoder = .standard ∧ m.redirectsHome = true := by
  rw [atPath] at h
  split at h
  · cases h
  · cases h
  · cases h
    exact ⟨rfl, rfl, rfl⟩

/-- Without parameters there is an empty segment for each placeholder, and nothing behind them. -/
theorem url_empty (hencoder : m.encoder = .standard ∨ m.encoder = .path) :
    m.url none {} = { segments := (fill m.segments {}).1 } := by
  have htail : m.tail {} = {} := by
    rw [tail, others, Parameters.others]
    rcases hencoder with hencoder | hencoder
    · rw [hencoder]
      rfl
    · rw [hencoder]
      rfl
  rw [url_eq, htail, List.append_nil]

/-- The empty segments are read as empty values. -/
theorem captures_fill_empty (ms : List MountSegment) :
    captures ms (fill ms {}).1 = (names ms).map fun name => { name } := by
  induction ms with
  | nil => rfl
  | cons s ms ih =>
    cases s with
    | literal text => exact ih
    | placeholder name => exact congrArg (({ name } : NamedValue) :: ·) ih

/-- Only the path of a single placeholder is written as a single empty segment. -/
theorem fill_empty_eq_iff (m : Mount) :
    (fill m.segments {}).1 = [""] ↔ ∃ name, m.segments = [.placeholder name] := by
  have hblank : (fill m.segments {}).1 ++ [] = [""] ↔
      (∃ name, m.segments = [.placeholder name] ∧ "" = "") ∧ ([] : List String) = [] :=
    fill_append_eq_blank_iff m.ne_nil m.isPart {}
  simpa only [List.append_nil, and_true] using hblank

theorem decode?_root (hclass : m.pageClass = c.home) (hredirects : m.redirectsHome = true)
    (headers : List (String × String)) :
    m.decode? c { url := {}, headers } = some (.redirect (m.url none {})) := by
  have hhome : m.takesHome c {} = true := by
    rw [takesHome, hredirects, hclass, decide_eq_true rfl]
    rfl
  rw [decode?, if_pos hhome]

/-- The URL of a page without parameters is read as a page with an empty value for each
placeholder. -/
theorem decode?_url_empty (hencoder : m.encoder = .standard ∨ m.encoder = .path) :
    m.decode? c { url := m.url none {} } =
      some (.bookmarkable m.pageClass { named := m.placeholders.map fun name => { name } }) := by
  have hsegments : (fill m.segments {}).1 ≠ [] := by
    intro hnil
    have hlength := length_fill m.segments {}
    rw [hnil] at hlength
    exact m.ne_nil (List.length_eq_zero_iff.1 hlength.symm)
  have hfits : m.fits { segments := (fill m.segments {}).1 } = true := by
    have hfill := m.fits_fill {} [] []
    rwa [List.append_nil] at hfill
  have hdrop : (fill m.segments {}).1.drop m.segments.length = [] := by
    rw [← length_fill m.segments {}]
    exact List.drop_length
  have hread : m.encoder.readParameters { segments := (fill m.segments {}).1 } m.segments.length =
      {} := by
    rw [Encoder.readParameters, Url.remainder, hdrop]
    rcases hencoder with hencoder | hencoder
    · rw [hencoder]
      rfl
    · rw [hencoder]
      rfl
  rw [url_empty hencoder, decode?_of_segments hsegments, link?, if_pos hfits, hread,
    captures_fill_empty]
  rfl

/-- A request for the root of the application is sent on to the mount of the home page. Following that
gives the home page, with an empty value for each placeholder. But if the path is a single placeholder,
the root is sent on to itself, without end. -/
theorem decode_followed_home (hpath : atPath path c.home = .ok m)
    (hencoder : encoder = .standard ∨ encoder = .path) (b : Buffer)
    (headers : List (String × String)) :
    let home := { m with encoder }
    let target := home.url none {}
    (home.mapper c).decode b { url := Url.parse "/", headers } = (some (.redirect target), b) ∧
    ((¬ ∃ name, m.segments = [.placeholder name]) →
      (home.mapper c).decode b (Request.ofText target.text) =
        (some (.bookmarkable c.home { named := m.placeholders.map fun name => { name } }), b)) ∧
    ((∃ name, m.segments = [.placeholder name]) →
      (home.mapper c).decode b (Request.ofText target.text) = (some (.redirect target), b)) := by
  intro home target
  obtain ⟨hclass, -, hredirects⟩ := options_of_atPath hpath
  have hroot (headers : List (String × String)) :
      (home.mapper c).decode b { url := {}, headers } = (some (.redirect target), b) :=
    congrArg (·, b) (decode?_root (m := home) hclass hredirects headers)
  have htarget : target = { segments := (fill m.segments {}).1 } := url_empty hencoder
  rw [Request.ofText, Url.parse_text]
  refine ⟨hroot headers, fun hmore => ?_, fun hsingle => ?_⟩
  · have hpath : target.segments ≠ [""] := by
      rw [htarget]
      exact fun h => hmore ((fill_empty_eq_iff m).1 h)
    have hquery : ∀ v ∈ target.query, v ≠ Url.blank := by
      rw [htarget]
      exact fun v hv => absurd hv List.not_mem_nil
    rw [Url.reread_eq_self hpath hquery, ← hclass]
    exact congrArg (·, b) (decode?_url_empty (m := home) hencoder)
  · have hreread : target.reread = {} := by
      rw [htarget, Url.reread, if_pos ((fill_empty_eq_iff m).2 hsingle)]
      rfl
    rw [hreread]
    exact hroot []

theorem decode_followed_home_of_users :
    atPath "/users/$\x7bid\x7d" "User" = .ok (ofUsers .standard) ∧
    (Encoder.path = .standard ∨ Encoder.path = .path) ∧
    ((ofUsers .path).mapper { home := "User" }).decode [] { url := Url.parse "/" } =
      (some (.redirect { segments := ["users", ""] }), []) ∧
    ((ofUsers .path).mapper { home := "User" }).decode []
        (Request.ofText (Url.text { segments := ["users", ""] })) =
      (some (.bookmarkable "User" { named := [⟨"id", ""⟩] }), []) := by
  have hpath : atPath "/users/$\x7bid\x7d" "User" = .ok (ofUsers .standard) := rfl
  have hmore : ¬ ∃ name, (ofUsers .standard).segments = [.placeholder name] := by
    rintro ⟨name, h⟩
    cases h
  obtain ⟨hroot, hfollowed, -⟩ :=
    decode_followed_home (c := { home := "User" }) hpath (.inr rfl) [] []
  exact ⟨hpath, .inr rfl, hroot, hfollowed hmore⟩

/-- The empty value of a single placeholder is written as the root. -/
theorem decode_root_of_placeholder :
    atPath "/$\x7bname\x7d" "Any" = .ok Site.atNames ∧
    (Site.atNames.mapper { home := "Any" }).decode [] { url := Url.parse "/" } =
      (some (.redirect { segments := [""] }), []) ∧
    (Site.atNames.mapper { home := "Any" }).decode []
        (Request.ofText (Url.text { segments := [""] })) =
      (some (.redirect { segments := [""] }), []) := by
  refine ⟨rfl, ?_, ?_⟩
  · decide +kernel
  · decide +kernel

end Mount

/-! ## To the URL of a buffered response -/

/-- A response that is kept for a URL is taken away by another one with the same text. -/
theorem Buffer.drop_store (b : Buffer) {url other : Url} (htext : other.text = url.text)
    (response : BufferedResponse) : (b.store url response).drop other = b.drop url := by
  rw [store, drop, htext, List.filter_cons_of_neg (by simp)]
  exact List.filter_eq_self.2 fun entry hentry => (List.mem_filter.1 hentry).2

namespace Site

variable {s : Site} {r : Request} {url : Url}

/-- A response that is kept for a URL with another text changes no answer, and goes on waiting. -/
theorem decode_store_of_text_ne (hshort : ∀ m ∈ s.mounts, m.segments.length < Mapper.maxScore)
    (htext : url.text ≠ r.url.text) (b : Buffer) (response : BufferedResponse) :
    (s.mapper.decode (b.store url response) r).1 = (s.mapper.decode b r).1 ∧
      (s.mapper.decode (b.store url response) r).2.response? url = some response := by
  have hkept : (b.store url response).response? url = some response := by
    rw [Buffer.response?_store, if_pos rfl]
  have hother : (b.store url response).response? r.url = b.response? r.url := by
    rw [Buffer.response?_store, if_neg htext]
  cases hwaiting : b.response? r.url with
  | some waiting =>
    rw [decode_of_waiting hshort hwaiting, decode_of_waiting hshort (hother.trans hwaiting)]
    refine ⟨rfl, ?_⟩
    rw [Buffer.response?_drop, if_neg (Ne.symm htext), hkept]
  | none =>
    rw [(unmoved hwaiting).decode, (unmoved (hother.trans hwaiting)).decode]
    exact ⟨rfl, hkept⟩

/-- A browser that is sent on to a URL is given the response that was buffered for it, whatever else is
buffered. But if a parameter of the URL has neither a name nor a value, the text that the browser asks
for is read as a URL with another text: the request is answered as if the response had not been
buffered, and the response goes on waiting. -/
theorem decode_followed (hshort : ∀ m ∈ s.mounts, m.segments.length < Mapper.maxScore) (b : Buffer)
    (url : Url) (response : BufferedResponse) :
    let followed := s.mapper.decode (b.store url response) (Request.ofText url.text)
    ((∀ v ∈ url.query, ¬ (v.name = "" ∧ v.value = "")) →
      followed = (some (.buffered (Url.parse url.text) response), b.drop url)) ∧
    ((∃ v ∈ url.query, v.name = "" ∧ v.value = "") →
      followed.1 = (s.mapper.decode b (Request.ofText url.text)).1 ∧
        followed.2.response? url = some response) := by
  intro followed
  have hread : (Request.ofText url.text).url = url.reread := Url.parse_text url
  constructor
  · intro hshown
    have htext : url.reread.text = url.text :=
      Url.text_reread_eq_iff.2 fun v hv => Mount.blank_iff.2 (hshown v hv)
    have hwaiting : (b.store url response).response? (Request.ofText url.text).url = some response := by
      rw [hread, Buffer.response?_store, if_pos htext.symm]
    have hdrop : (b.store url response).drop (Request.ofText url.text).url = b.drop url :=
      b.drop_store (by rw [hread, htext]) response
    calc followed
        = (some (.buffered (Url.parse url.text) response),
            (b.store url response).drop (Request.ofText url.text).url) :=
          decode_of_waiting hshort hwaiting
      _ = (some (.buffered (Url.parse url.text) response), b.drop url) := by rw [hdrop]
  · rintro ⟨v, hv, hblank⟩
    apply decode_store_of_text_ne hshort
    rw [hread]
    intro htext
    exact Mount.blank_iff.1 (Url.text_reread_eq_iff.1 htext.symm v hv) hblank

/-- The URL of a user, which shows all its parameters, is found again. -/
theorem decode_followed_of_users :
    (∀ m ∈ ofUsers.mounts, m.segments.length < Mapper.maxScore) ∧
    ofUsers.mapper.decode (Buffer.store [] { segments := ["users", "7"], query := [⟨"a", ""⟩] }
        ⟨"text/html", [1]⟩) (Request.ofText "/users/7?a") =
      (some (.buffered { segments := ["users", "7"], query := [⟨"a", ""⟩] } ⟨"text/html", [1]⟩), []) := by
  have hshort : ∀ m ∈ ofUsers.mounts, m.segments.length < Mapper.maxScore := by decide
  exact ⟨hshort, (decode_followed hshort [] _ _).1 (by decide)⟩

/-- The response for a URL with a blank parameter in front is not found. -/
theorem decode_home_of_blank :
    (Url.text { segments := ["trellis", "bookmarkable", "Home"], query := [⟨"", ""⟩, ⟨"x", "1"⟩] } =
      "/trellis/bookmarkable/Home?&x=1") ∧
    (mapper { context := { home := "Home" } }).decode
        (Buffer.store [] { segments := ["trellis", "bookmarkable", "Home"]
                           query := [⟨"", ""⟩, ⟨"x", "1"⟩] } ⟨"text/html", [1]⟩)
        (Request.ofText "/trellis/bookmarkable/Home?&x=1") =
      (some (.bookmarkable "Home" { named := [⟨"x", "1"⟩] }),
        [("/trellis/bookmarkable/Home?&x=1", ⟨"text/html", [1]⟩)]) := by
  refine ⟨by decide +kernel, ?_⟩
  rw [decode_eq (by decide) (by decide +kernel)]
  decide +kernel

end Site

end StatefulPages
