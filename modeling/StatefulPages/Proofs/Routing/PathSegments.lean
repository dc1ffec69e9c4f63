import StatefulPages.Proofs.Routing.Instances

/-!
# The path of a mounted page and its parameters

A mount puts the segments at its placeholders behind the other parameters that it reads. So a
placeholder stands for its segment only as long as no other parameter of its name says something else;
if one does, the page gets that value, and its URLs have it in the path.

* `Mount.get?_of_read`: which value of a placeholder's name the page gets;
* `Mount.fill_eq_take_iff`: when the segments that are written are those that were read;
* `Mount.Undisputed`: the requests in which nothing speaks against a placeholder's segment;
* `Mount.placeholders_iff_undisputed`: for these, and no others, placeholders are their segments.
-/

namespace StatefulPages

/-! ## The parameters of a handler -/

namespace Handler

/-- The parameters of the page that is made, rendered or called. -/
def pageParameters? : Handler → Option Parameters
  | bookmarkable _ p => some p
  | render page _ => some page.parameters
  | listener call => some call.page.parameters
  | _ => none

end Handler

namespace PageLink

variable {c : Context} {link : PageLink} {h : Handler}

theorem pageParameters?_of_handler? (hread : link.handler? c = some h) :
    h.pageParameters? = some link.parameters := by
  rw [handler?] at hread
  cases haddress : link.address with
  | none =>
    rw [haddress] at hread
    cases hread
    rfl
  | some a =>
    rw [haddress] at hread
    cases hcomponent : a.component with
    | none =>
      simp only [hcomponent, Context.handlerFor?] at hread
      cases hread
      rfl
    | some component =>
      simp only [hcomponent, Context.handlerFor?, Option.map_eq_some_iff] at hread
      obtain ⟨interface, -, rfl⟩ := hread
      rfl

/-- A handler that was read from a link is written as one of the same class and parameters. -/
theorem ofHandler?_of_handler? (hread : link.handler? c = some h) (pages : Pages)
    {accepts : PageClass → Bool} (haccepts : accepts link.pageClass = true) :
    ∃ address, ofHandler? pages accepts false h =
      some { address, pageClass := link.pageClass, parameters := link.parameters } := by
  rw [handler?] at hread
  cases haddress : link.address with
  | none =>
    rw [haddress] at hread
    cases hread
    exact ⟨none, if_pos haccepts⟩
  | some a =>
    rw [haddress] at hread
    cases hcomponent : a.component with
    | none =>
      simp only [hcomponent, Context.handlerFor?] at hread
      cases hread
      exact ⟨_, by simp [ofHandler?, acceptedClass?, haccepts]; rfl⟩
    | some component =>
      simp only [hcomponent, Context.handlerFor?, Option.map_eq_some_iff] at hread
      obtain ⟨interface, -, rfl⟩ := hread
      exact ⟨_, by simp [ofHandler?, acceptedClass?, haccepts]; rfl⟩

end PageLink

namespace Url

/-- The segments of a page's URL begin with those in front. -/
theorem segments_withPage (base : Url) (address : Option Address) (p : Parameters)
    (encoder : Encoder) :
    ∃ rest, (base.withPage address p encoder).segments = base.segments ++ rest := by
  rw [withPage]
  split
  · exact ⟨_, rfl⟩
  · exact ⟨_, rfl⟩

end Url

namespace Parameters

theorem get?_append (p : Parameters) (more : List NamedValue) (name : String) :
    ({ p with named := p.named ++ more } : Parameters).get? name =
      (p.get? name).or ((more.find? (·.name = name)).map (·.value)) := by
  rw [get?, get?, List.find?_append, Option.map_or]

end Parameters

namespace Mount

variable {m : Mount} {c : Context} {pages : Pages} {b : Buffer} {r : Request} {h : Handler}
  {p : Parameters} {ms : List MountSegment} {segments : List String}

/-! ## What is read -/

theorem mem_names {name : String} : name ∈ names ms ↔ MountSegment.placeholder name ∈ ms := by
  induction ms with
  | nil => simp [names]
  | cons s ms ih => cases s <;> simp [names, ih]

/-- The parameter that is read for a placeholder is the segment at its place. -/
theorem find?_captures (hnames : (names ms).Nodup) (hlength : ms.length ≤ segments.length) {k : Nat}
    {name : String} (hk : ms[k]? = some (.placeholder name)) :
    ((captures ms segments).find? (·.name = name)).map (·.value) = segments[k]? := by
  induction ms generalizing segments k with
  | nil => cases hk
  | cons s ms ih =>
    obtain ⟨segment, segments, rfl⟩ := List.exists_cons_of_length_pos (Nat.lt_of_lt_of_le
      (Nat.zero_lt_succ _) hlength)
    rw [List.length_cons, List.length_cons, Nat.succ_le_succ_iff] at hlength
    cases s with
    | literal text =>
      cases k with
      | zero => cases hk
      | succ k => exact ih hnames hlength hk
    | placeholder other =>
      obtain ⟨hnot, hnames⟩ := List.nodup_cons.1 hnames
      rw [captures]
      cases k with
      | zero =>
        rw [List.getElem?_cons_zero, Option.some.injEq, MountSegment.placeholder.injEq] at hk
        simp [hk]
      | succ k =>
        have hne : other ≠ name := by
          rintro rfl
          exact hnot (mem_names.2 (List.mem_of_getElem? hk))
        rw [List.find?_cons_of_neg (by simpa using hne)]
        exact ih hnames hlength hk

/-- The parameters behind the segments of a mount. -/
def behind (m : Mount) (url : Url) : Parameters :=
  m.encoder.readParameters url m.segments.length

theorem length_le_of_fits {url : Url} (hfits : m.fits url = true) :
    m.segments.length ≤ url.segments.length := by
  rw [fits, Bool.and_eq_true] at hfits
  exact of_decide_eq_true hfits.1

/-- What a mount reads as a handler of a page. -/
theorem handler?_of_decode? (hread : m.decode? c r = some h) (hp : h.pageParameters? = some p) :
    m.fits r.url = true ∧
      p = { m.behind r.url with
            named := (m.behind r.url).named ++ captures m.segments r.url.segments } ∧
      ({ address := r.address?, pageClass := m.pageClass, parameters := p } : PageLink).handler? c =
        some h := by
  rw [decode?] at hread
  split at hread
  · cases hread
    cases hp
  · rw [link?] at hread
    split at hread
    · rename_i hfits
      rw [Option.bind_some] at hread
      rw [PageLink.pageParameters?_of_handler? hread, Option.some.injEq] at hp
      subst hp
      exact ⟨hfits, rfl, hread⟩
    · cases hread

/-- A page gets the value of a placeholder's name from behind the mount, and only if there is none the
segment of the placeholder. -/
theorem get?_of_read (hnames : m.placeholders.Nodup) (hread : m.decode? c r = some h)
    (hp : h.pageParameters? = some p) {k : Nat} {name : String}
    (hk : m.segments[k]? = some (.placeholder name)) :
    p.get? name = ((m.behind r.url).get? name).or r.url.segments[k]? := by
  obtain ⟨hfits, rfl, -⟩ := handler?_of_decode? hread hp
  rw [Parameters.get?_append, find?_captures hnames (length_le_of_fits hfits) hk]

/-! ## What is written -/

/-- The segments that are written are some that fit exactly if each placeholder's name has the value
at its place. -/
theorem fill_eq_take_iff (hnames : (names ms).Nodup) (hlength : ms.length ≤ segments.length)
    (hfits : (ms.zip segments).all (fun (s, segment) => s.fits segment) = true) (p : Parameters) :
    (fill ms p).1 = segments.take ms.length ↔
      ∀ (k : Nat) (name : String), ms[k]? = some (.placeholder name) →
        segments[k]? = some ((p.get? name).getD "") := by
  induction ms generalizing segments p with
  | nil => simp [fill]
  | cons s ms ih =>
    obtain ⟨segment, segments, rfl⟩ := List.exists_cons_of_length_pos (Nat.lt_of_lt_of_le
      (Nat.zero_lt_succ _) hlength)
    rw [List.length_cons, List.length_cons, Nat.succ_le_succ_iff] at hlength
    rw [List.zip_cons_cons, List.all_cons, Bool.and_eq_true] at hfits
    rw [List.length_cons, List.take_succ_cons, ← Nat.and_forall_add_one]
    cases s with
    | literal text =>
      have htext : text = segment := eq_of_beq hfits.1
      simp [fill, htext, ih hnames hlength hfits.2 p]
    | placeholder name =>
      obtain ⟨hnot, hnames⟩ := List.nodup_cons.1 hnames
      rw [fill, List.cons.injEq, ih hnames hlength hfits.2]
      have hget {k : Nat} {other : String} (hk : ms[k]? = some (.placeholder other)) :
          (p.remove name).get? other = p.get? other :=
        Parameters.get?_remove_of_ne fun heq => hnot (heq ▸ mem_names.2 (List.mem_of_getElem? hk))
      apply and_congr
      · simp [eq_comm]
      · refine forall₂_congr fun k other => forall_congr' fun hk => ?_
        rw [hget hk]
        rfl

/-- Indicates a request in which no parameter behind the mount speaks against the segment of a
placeholder: of those with the name of the placeholder, the first has this segment as its value. -/
def Undisputed (m : Mount) (url : Url) : Prop :=
  ∀ (k : Nat) (name : String), m.segments[k]? = some (.placeholder name) →
    ∀ value ∈ (m.behind url).get? name, url.segments[k]? = some value

/-- The placeholders of a mount stand for the segments of a request exactly if nothing in the request
speaks against them, and just then the URL of what was read begins with the same segments. -/
theorem placeholders_iff_undisputed (hnames : m.placeholders.Nodup)
    (hread : ((m.mapper c).decode b r).1 = some h) (hp : h.pageParameters? = some p)
    (pages : Pages) :
    ((∀ (k : Nat) (name : String), m.segments[k]? = some (.placeholder name) →
        p.get? name = r.url.segments[k]?) ↔ m.Undisputed r.url) ∧
    ∃ url, (m.mapper c).encode pages h = some url ∧
      (url.segments.take m.segments.length = r.url.segments.take m.segments.length ↔
        m.Undisputed r.url) := by
  change m.decode? c r = some h at hread
  obtain ⟨hfits, -, hhandler⟩ := handler?_of_decode? hread hp
  have hlength := length_le_of_fits hfits
  have hget {k : Nat} {name : String} (hk : m.segments[k]? = some (.placeholder name)) :=
    get?_of_read hnames hread hp hk
  have hsegment {k : Nat} {name : String} (hk : m.segments[k]? = some (.placeholder name)) :
      ∃ segment, r.url.segments[k]? = some segment := by
    have hlt : k < m.segments.length := (List.getElem?_eq_some_iff.1 hk).1
    exact ⟨_, List.getElem?_eq_getElem (Nat.lt_of_lt_of_le hlt hlength)⟩
  refine ⟨?_, ?_⟩
  · refine forall₂_congr fun k name => forall_congr' fun hk => ?_
    obtain ⟨segment, hsegment⟩ := hsegment hk
    rw [hget hk, hsegment]
    cases (m.behind r.url).get? name <;> simp [eq_comm]
  · obtain ⟨address, hlink⟩ : ∃ address, PageLink.ofHandler? pages (· = m.pageClass) false h =
        some { address, pageClass := m.pageClass, parameters := p } :=
      PageLink.ofHandler?_of_handler? hhandler pages (by simp)
    obtain ⟨rest, hrest⟩ := Url.segments_withPage { segments := (fill m.segments p).1 } address
      (fill m.segments p).2 m.encoder
    refine ⟨m.url address p, ?_, ?_⟩
    · show (PageLink.ofHandler? pages (· = m.pageClass) false h).map _ = _
      rw [hlink]
      rfl
    · rw [url, hrest, List.take_left' (length_fill m.segments p)]
      rw [fits, Bool.and_eq_true] at hfits
      rw [fill_eq_take_iff hnames hlength hfits.2]
      refine forall₂_congr fun k name => forall_congr' fun hk => ?_
      obtain ⟨segment, hsegment⟩ := hsegment hk
      rw [hget hk, hsegment]
      cases (m.behind r.url).get? name <;> simp

/-- A query parameter with another name speaks against no placeholder; behind the mount, a name and a
value in the path do so as a query parameter would. -/
theorem placeholders_iff_undisputed_of_users :
    (ofUsers .standard).placeholders.Nodup ∧
    (((ofUsers .standard).mapper { home := "Home" }).decode []
      (Request.ofText "/users/42?5&x=id")).1 =
        some (.render { id := some 5, pageClass := some "User"
                        parameters := { named := [⟨"x", "id"⟩, ⟨"id", "42"⟩] } } .auto) ∧
    (ofUsers .standard).Undisputed (Url.parse "/users/42?5&x=id") ∧
    (ofUsers .path).placeholders.Nodup ∧
    (((ofUsers .path).mapper { home := "Home" }).decode [] (Request.ofText "/users/42/id/7")).1 =
      some (.bookmarkable "User" { named := [⟨"id", "7"⟩, ⟨"id", "42"⟩] }) ∧
    ¬ (ofUsers .path).Undisputed (Url.parse "/users/42/id/7") := by
  have hstandard : (ofUsers .standard).placeholders.Nodup := by decide
  have hpath : (ofUsers .path).placeholders.Nodup := by decide
  have hrender : (((ofUsers .standard).mapper { home := "Home" }).decode []
      (Request.ofText "/users/42?5&x=id")).1 =
        some (.render { id := some 5, pageClass := some "User"
                        parameters := { named := [⟨"x", "id"⟩, ⟨"id", "42"⟩] } } .auto) := by
    decide +kernel
  have hnew : (((ofUsers .path).mapper { home := "Home" }).decode []
      (Request.ofText "/users/42/id/7")).1 =
        some (.bookmarkable "User" { named := [⟨"id", "7"⟩, ⟨"id", "42"⟩] }) := by
    decide +kernel
  refine ⟨hstandard, hrender, ?_, hpath, hnew, ?_⟩
  · refine (placeholders_iff_undisputed hstandard hrender rfl .empty).1.1 fun k name hk => ?_
    match k with
    | 0 => cases hk
    | 1 =>
      cases hk
      decide +kernel
    | k + 2 => cases hk
  · intro h
    have hget := (placeholders_iff_undisputed hpath hnew rfl .empty).1.2 h 1 "id" rfl
    revert hget
    decide +kernel

/-- Where a query parameter has the name of a placeholder, the page gets its value instead of the
segment, and another user's URL. -/
theorem get?_of_disputed_user :
    (ofUsers .standard).placeholders.Nodup ∧
    (((ofUsers .standard).mapper { home := "Home" }).decode []
      (Request.ofText "/users/42?id=7")).1 =
        some (.bookmarkable "User" { named := [⟨"id", "7"⟩, ⟨"id", "42"⟩] }) ∧
    ({ named := [⟨"id", "7"⟩, ⟨"id", "42"⟩] } : Parameters).get? "id" = some "7" ∧
    ((ofUsers .standard).mapper { home := "Home" }).encode .empty
      (.bookmarkable "User" { named := [⟨"id", "7"⟩, ⟨"id", "42"⟩] }) =
        some { segments := ["users", "7"] } := by
  refine ⟨by decide, by decide +kernel, by decide, by decide +kernel⟩

end Mount

end StatefulPages
