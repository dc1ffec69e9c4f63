import StatefulPages.Proofs.Routing.PathSegments
import StatefulPages.Proofs.Routing.Precedence

/-!
# Mounts and the URLs that a site makes itself

The mappers that every site has score a URL by its form, a mount by the number of its segments. So no
mount takes the URL of a page instance, of a resource or of a buffered response, unless its path is
very long. The URL of a page class scores only as high as a mount of two segments, which was added later.
If such a mount fits, by a placeholder in the place of the root, it takes the URL, though a URL is meant to
be read back as what it was made for.

* `Site.IsReserved`: the requests that no mount takes from the site;
* `Mount.Outranks`: the mounts that take the URLs of page classes which they fit;
* `Site.decode_frameworkUrl`: which of its own URLs a site with mounts reads back, and which it does not;
* `Site.decode_home_of_pairs`: one that it does not.
-/

namespace StatefulPages

/-! ## Reading a page class at a mount -/

namespace Handler

/-- Handlers are equal only with the same named parameters, in any order. -/
theorem perm_of_beq {h₁ h₂ : Handler} {p₁ p₂ : Parameters} (heq : (h₁ == h₂) = true)
    (hp₁ : h₁.pageParameters? = some p₁) (hp₂ : h₂.pageParameters? = some p₂) :
    p₁.named.Perm p₂.named := by
  have hparameters : (p₁ == p₂) = true := by
    cases h₁ with
    | bookmarkable pageClass p =>
      cases hp₁
      cases h₂ with
      | bookmarkable pageClass' p' =>
        cases hp₂
        exact (Bool.and_eq_true_iff.1 heq).2
      | _ => exact absurd heq Bool.noConfusion
    | render page policy =>
      cases hp₁
      cases h₂ with
      | render page' policy' =>
        cases hp₂
        exact (PageSource.beq_iff.1 (render_beq_iff.1 heq).1).2.2.2.1
      | _ => exact absurd heq Bool.noConfusion
    | listener call =>
      cases hp₁
      cases h₂ with
      | listener call' =>
        cases hp₂
        exact (PageSource.beq_iff.1 (listener_beq_iff.1 heq).1).2.2.2.1
      | _ => exact absurd heq Bool.noConfusion
    | _ => cases hp₁
  exact (Parameters.beq_iff.1 hparameters).2

end Handler

/-- Whether a link asks for something is a matter of its address alone. -/
theorem PageLink.isSome_handler? {c : Context} {link₁ link₂ : PageLink}
    (haddress : link₁.address = link₂.address) :
    (link₁.handler? c).isSome = (link₂.handler? c).isSome := by
  rw [handler?, handler?, haddress]
  cases link₂.address with
  | none => rfl
  | some a =>
    show (c.handlerFor? _ a.component).isSome = (c.handlerFor? _ a.component).isSome
    cases a.component with
    | none => rfl
    | some component =>
      show ((c.interface? _).map _).isSome = ((c.interface? _).map _).isSome
      rw [Option.isSome_map, Option.isSome_map]

namespace Mount

variable {m : Mount} {c : Context} {url : Url} {r : Request} {mark : String}

/-- Indicates a mount that fits with two segments or more, and so has precedence over the mapper of
page classes. -/
def Outranks (m : Mount) (url : Url) : Prop :=
  m.fits url = true ∧ 2 ≤ m.segments.length

/-- What a mount reads below a mark. -/
theorem decode?_of_isBelow (hfits : m.fits r.url = true)
    (hbelow : Mapper.isBelow c mark r.url = true) :
    m.decode? c r =
      ({ address := r.address?, pageClass := m.pageClass
         parameters :=
           { m.behind r.url with
             named := (m.behind r.url).named ++ captures m.segments r.url.segments } } :
        PageLink).handler? c := by
  obtain ⟨rest, hsegments⟩ := Context.isBelow_iff.1 hbelow
  have hhome : m.takesHome c r.url = false := by
    simp [takesHome, Url.isEmpty, hsegments]
  rw [decode?, hhome, if_neg Bool.false_ne_true, link?, if_pos hfits]
  rfl

/-- A mount that fits below a mark, and does not begin with the root, has a placeholder for it. -/
theorem captures_ne_nil (hroot : m.segments.head? ≠ some (.literal c.root))
    (hfits : m.fits url = true) (hbelow : Mapper.isBelow c mark url = true) :
    captures m.segments url.segments ≠ [] := by
  obtain ⟨rest, hsegments⟩ := Context.isBelow_iff.1 hbelow
  rw [fits, Bool.and_eq_true, hsegments] at hfits
  rw [hsegments]
  cases hm : m.segments with
  | nil => exact absurd hm m.ne_nil
  | cons s ms =>
    rw [hm, List.zip_cons_cons, List.all_cons, Bool.and_eq_true] at hfits
    rw [hm, List.head?_cons] at hroot
    cases s with
    | literal text =>
      have htext : text = c.root := eq_of_beq hfits.2.1
      rw [htext] at hroot
      exact absurd rfl hroot
    | placeholder name => exact List.cons_ne_nil _ _

/-- Behind a mount there are the query parameters at least. -/
theorem length_le_behind (hencoder : m.encoder = .standard ∨ m.encoder = .path) (url : Url)
    (n : Nat) :
    (Encoder.standard.readParameters url n).named.length ≤ (m.behind url).named.length := by
  rw [Encoder.readParameters, Encoder.decode_standard]
  rcases hencoder with hencoder | hencoder
  · rw [behind, hencoder, Encoder.readParameters, Encoder.decode_standard]
    exact Nat.le_refl _
  · rw [behind, hencoder]
    show _ ≤ (Encoder.pairs _ ++ _).length
    rw [List.length_append]
    exact Nat.le_add_left _ _

/-- Where a mount takes the URL of a page class, it reads something else: its placeholders are further
parameters. -/
theorem decode?_ne_of_isBelow (hencoder : m.encoder = .standard ∨ m.encoder = .path)
    (hroot : m.segments.head? ≠ some (.literal c.root)) (hfits : m.fits r.url = true)
    (hbelow : Mapper.isBelow c mark r.url = true) {h : Handler} {n : Nat}
    (hp : h.pageParameters? = some (Encoder.standard.readParameters r.url n)) :
    (m.decode? c r == some h) = false := by
  rw [decode?_of_isBelow hfits hbelow]
  generalize hlink : PageLink.handler? _ _ = read
  cases read with
  | none => rfl
  | some other =>
    rw [Bool.eq_false_iff]
    intro heq
    have hequal : (other == h) = true := heq
    have hperm := Handler.perm_of_beq hequal (PageLink.pageParameters?_of_handler? hlink) hp
    have hlength := hperm.length_eq
    have hcaptures := List.length_pos_iff.2 (captures_ne_nil hroot hfits hbelow)
    have hbehind := length_le_behind hencoder r.url n
    simp only [List.length_append] at hlength
    omega

end Mount

/-! ## Sites -/

namespace Site

variable {c : Context} {mounts : List Mount} {m : Mapper} {b : Buffer} {r : Request} {h : Handler}

/-- Indicates a request that a response waits for, or one for a page instance or a resource. -/
def IsReserved (c : Context) (b : Buffer) (r : Request) : Prop :=
  (b.response? r.url).isSome = true ∨ Mapper.isBelow c c.pageMark r.url = true ∨
    Mapper.isBelow c c.resourceMark r.url = true

/-- How high the mapper of a site scores that reads a URL below a mark. -/
theorem score_of_reads {mark : String} (hbelow : Mapper.isBelow c mark r.url = true)
    (hm : m ∈ framework c) (hreads : m.Reads b r) :
    (m.score b r = 2 ∧ Mapper.isBelow c c.bookmarkableMark r.url = true) ∨
      (998 ≤ m.score b r ∧ IsReserved c b r) := by
  obtain ⟨h, hread⟩ := Option.isSome_iff_exists.1 hreads
  rcases mem_framework.1 hm with rfl | rfl | rfl | rfl | rfl
  · have hwaiting := reads_buffered_iff.1 hreads
    exact .inr ⟨by rw [score_buffered hwaiting]; decide, .inl hwaiting⟩
  · have hresource := Context.isBelow_of_decodeResource? hread
    have hscore : (Mapper.resource c).score b r = Mapper.maxScore := if_pos hresource
    exact .inr ⟨by rw [hscore]; decide, .inr (.inr hresource)⟩
  · have hclass := Context.isBelow_of_decodeBookmarkable? hread
    exact .inl ⟨if_pos hclass, hclass⟩
  · have hpage := Context.isBelow_of_decodePageInstance? hread
    have hscore : (Mapper.pageInstance c).score b r = 998 := if_pos hpage
    exact .inr ⟨Nat.le_of_eq hscore.symm, .inr (.inl hpage)⟩
  · rw [Context.isBelow_of_segments_nil (Context.segments_of_homePage hread)] at hbelow
    exact absurd hbelow Bool.false_ne_true

/-- The URL of a reserved request is not one of a page class, unless a response waits for it. -/
theorem waits_of_isReserved (hmarks : c.marks.Nodup) (hreserved : IsReserved c b r)
    (hclass : Mapper.isBelow c c.bookmarkableMark r.url = true) :
    (b.response? r.url).isSome = true := by
  obtain ⟨hresource, -, hpage⟩ := Context.ne_of_marks hmarks
  rcases hreserved with hwaiting | hbelow | hbelow
  · exact hwaiting
  · rw [Context.isBelow_of_ne hpage.symm hclass] at hbelow
    exact absurd hbelow Bool.false_ne_true
  · rw [Context.isBelow_of_ne hresource hclass] at hbelow
    exact absurd hbelow Bool.false_ne_true

theorem le_score_of_isReserved (hmarks : c.marks.Nodup) {mark : String}
    (hbelow : Mapper.isBelow c mark r.url = true) (hreserved : IsReserved c b r)
    (hbest : Mapper.IsBest (framework c) b r m) : 998 ≤ m.score b r := by
  rcases score_of_reads hbelow hbest.mem hbest.1 with ⟨-, hclass⟩ | ⟨hscore, -⟩
  · have hwaiting := waits_of_isReserved hmarks hreserved hclass
    calc 998 ≤ Mapper.maxScore := by decide
      _ = Mapper.buffered.score b r := (score_buffered hwaiting).symm
      _ ≤ m.score b r := hbest.score_le List.mem_cons_self (reads_buffered_iff.2 hwaiting)
  · exact hscore

/-- What a site without mounts reads below the mark of page classes, a link to the page says. -/
theorem exists_link_of_decode (hmarks : c.marks.Nodup)
    (hclass : Mapper.isBelow c c.bookmarkableMark r.url = true) (hnone : b.response? r.url = none)
    (hread : ((mapper { context := c }).decode b r).1 = some h) :
    ∃ link : PageLink, link.handler? c = some h ∧ link.address = r.address? ∧
      link.parameters = Encoder.standard.readParameters r.url 3 := by
  obtain ⟨hresource, -, -⟩ := Context.ne_of_marks hmarks
  rw [decode_eq hmarks hnone, Context.read?, Context.isBelow_of_ne hresource hclass,
    if_neg Bool.false_ne_true, if_pos hclass] at hread
  obtain ⟨pageClass, -, hread⟩ := Context.link_of_decodeBookmarkable? hread
  exact ⟨_, hread, rfl, rfl⟩

/-! ## With mounts -/

/-- Mounts that score less than the best of the site's own mappers change nothing. -/
theorem decode_of_lower (hbest : Mapper.IsBest (framework c) b r m)
    (hlower : ∀ mount ∈ mounts, (mount.mapper c).score b r < m.score b r) :
    (mapper { context := c, mounts }).decode b r = (mapper { context := c }).decode b r := by
  have hmounts : ∀ x ∈ mounts.map (·.mapper c), x.Reads b r → x.score b r < m.score b r := by
    intro x hx _
    obtain ⟨mount, hmount, rfl⟩ := List.mem_map.1 hx
    exact hlower mount hmount
  calc (mapper { context := c, mounts }).decode b r
      = m.decode b r := decode_of_isBest (hbest.append_left hmounts)
    _ = (mapper { context := c }).decode b r := (decode_of_isBest (s := { context := c }) hbest).symm

/-- If a mount reads the request and scores as high as the site's own mappers, one that scores no less
has precedence. -/
theorem decode_of_higher {mount : Mount} (hmount : mount ∈ mounts)
    (hreads : (mount.mapper c).Reads b r)
    (hframework : ∀ x ∈ framework c, x.Reads b r → x.score b r ≤ (mount.mapper c).score b r) :
    ∃ best ∈ mounts, (mount.mapper c).score b r ≤ (best.mapper c).score b r ∧
      (mapper { context := c, mounts }).decode b r = (best.decode? c r, b) := by
  have hmem := List.mem_map_of_mem (f := (·.mapper c)) hmount
  obtain ⟨m, hbest⟩ := Mapper.exists_isBest ⟨_, hmem, hreads⟩
  have hle := hbest.score_le hmem hreads
  have hback : ∀ x ∈ framework c, x.Reads b r → x.score b r ≤ m.score b r := fun x hx hxreads =>
    Nat.le_trans (hframework x hx hxreads) hle
  have hdecode := decode_of_isBest (s := { context := c, mounts }) (hbest.append_right hback)
  obtain ⟨best, hmem, rfl⟩ := List.mem_map.1 hbest.mem
  exact ⟨best, hmem, hle, hdecode⟩

theorem outranks_iff {mount : Mount} :
    mount.Outranks r.url ↔ 2 ≤ (mount.mapper c).score b r := by
  rw [score_mount, Mount.Outranks]
  split
  · rename_i hfits
    exact and_iff_right hfits
  · rename_i hfits
    exact iff_of_false (fun h => hfits h.1) (by decide)

/-- A site reads a URL that it made itself as it would without mounts, if the URL is reserved or no
mount outranks page classes for it; and if one does, such a mount reads it as something else, so that the URL
is not read back as what it was made for. -/
theorem decode_frameworkUrl (hmarks : c.marks.Nodup)
    (hroot : ∀ m ∈ mounts, m.segments.head? ≠ some (.literal c.root))
    (hshort : ∀ m ∈ mounts, m.segments.length < 998)
    (hbelow : ∃ mark ∈ c.marks, Mapper.isBelow c mark r.url = true)
    (hread : ((mapper { context := c }).decode b r).1 = some h) :
    ((IsReserved c b r ∨ ∀ m ∈ mounts, ¬ m.Outranks r.url) →
      (mapper { context := c, mounts }).decode b r = (mapper { context := c }).decode b r) ∧
    (¬ IsReserved c b r → (∃ m ∈ mounts, m.Outranks r.url) →
      ∃ m ∈ mounts, m.Outranks r.url ∧
        (mapper { context := c, mounts }).decode b r = (m.decode? c r, b) ∧
        (m.encoder = .standard ∨ m.encoder = .path → (m.decode? c r == some h) = false)) := by
  obtain ⟨mark, -, hbelow⟩ := hbelow
  obtain ⟨reader, hreader, hreads⟩ : ∃ x ∈ framework c, x.Reads b r :=
    Mapper.exists_reads_of_decode (fun x hx => keep_of_not_reads (s := { context := c }) hx) hread
  constructor
  · intro hkept
    obtain ⟨best, hbest⟩ := Mapper.exists_isBest ⟨reader, hreader, hreads⟩
    apply decode_of_lower hbest
    intro m hm
    rcases hkept with hreserved | hlow
    · calc (m.mapper c).score b r ≤ m.segments.length := score_mount_le m c b r
        _ < 998 := hshort m hm
        _ ≤ best.score b r := le_score_of_isReserved hmarks hbelow hreserved hbest
    · have hlow : ¬ 2 ≤ (m.mapper c).score b r := fun hle => hlow m hm (outranks_iff.2 hle)
      rcases score_of_reads hbelow hbest.mem hbest.1 with h | h <;> omega
  · intro hfree houtranked
    -- so the URL is one of a page class, and no response waits for it
    have hclass : Mapper.isBelow c c.bookmarkableMark r.url = true := by
      rcases score_of_reads hbelow hreader hreads with h | h
      · exact h.2
      · exact absurd h.2 hfree
    have hnone : b.response? r.url = none :=
      Option.not_isSome_iff_eq_none.1 fun hwaiting => hfree (.inl hwaiting)
    obtain ⟨link, hlink, haddress, hparameters⟩ := exists_link_of_decode hmarks hclass hnone hread
    obtain ⟨m, hm, houtranks⟩ := houtranked
    have hscore : 2 ≤ (m.mapper c).score b r := outranks_iff.1 houtranks
    have hmreads : (m.mapper c).Reads b r := by
      show (m.decode? c r).isSome = true
      rw [Mount.decode?_of_isBelow houtranks.1 hclass, PageLink.isSome_handler? haddress.symm, hlink]
      rfl
    have hframework : ∀ x ∈ framework c, x.Reads b r → x.score b r ≤ (m.mapper c).score b r := by
      intro x hx hxreads
      rcases score_of_reads hbelow hx hxreads with h | h
      · omega
      · exact absurd h.2 hfree
    obtain ⟨best, hbest, hle, hdecode⟩ := decode_of_higher hm hmreads hframework
    have hoverrides := outranks_iff.2 (Nat.le_trans hscore hle)
    refine ⟨best, hbest, hoverrides, hdecode, fun hencoder => ?_⟩
    apply Mount.decode?_ne_of_isBelow hencoder (hroot best hbest) hoverrides.1 hclass
    rw [PageLink.pageParameters?_of_handler? hlink, hparameters]

/-- A page at every path of two segments or more. -/
def atPairs : Mount where
  segments := [.placeholder "a", .placeholder "b"]
  pageClass := "Any"
  ne_nil := by decide
  isPart := by decide

/-- A page at every path. -/
def atNames : Mount where
  segments := [.placeholder "name"]
  pageClass := "Any"
  ne_nil := by decide
  isPart := by decide

/-- Two placeholders take no URL of a page instance, and a single one none of a page class. -/
theorem decode_frameworkUrl_of_placeholders :
    ({ home := "Home" } : Context).marks.Nodup ∧
    (∀ m ∈ [atPairs, atNames], m.segments.head? ≠ some (.literal "trellis")) ∧
    (∀ m ∈ [atPairs, atNames], m.segments.length < 998) ∧
    (mapper { context := { home := "Home" }, mounts := [atPairs, atNames] }).decode []
      (Request.ofText "/trellis/page?5") = (some (.render { id := some 5 } .auto), []) ∧
    (mapper { context := { home := "Home" }, mounts := [atNames] }).decode []
      (Request.ofText "/trellis/bookmarkable/Home?5") =
        (some (.render { id := some 5, pageClass := some "Home" } .auto), []) := by
  have hmarks : ({ home := "Home" } : Context).marks.Nodup := by decide
  have hroot : ∀ m ∈ [atPairs, atNames], m.segments.head? ≠ some (.literal "trellis") := by decide
  have hshort : ∀ m ∈ [atPairs, atNames], m.segments.length < 998 := by decide
  have hpage : (mapper { context := { home := "Home" } }).decode []
      (Request.ofText "/trellis/page?5") = (some (.render { id := some 5 } .auto), []) := by
    rw [decode_eq hmarks rfl]
    decide +kernel
  have hclass : (mapper { context := { home := "Home" } }).decode []
      (Request.ofText "/trellis/bookmarkable/Home?5") =
        (some (.render { id := some 5, pageClass := some "Home" } .auto), []) := by
    rw [decode_eq hmarks rfl]
    decide +kernel
  refine ⟨hmarks, hroot, hshort, ?_, ?_⟩
  · rw [← hpage]
    refine (decode_frameworkUrl hmarks hroot hshort ?_ (congrArg Prod.fst hpage)).1 (.inl ?_)
    · exact ⟨"page", by decide, by decide +kernel⟩
    · exact .inr (.inl (by decide +kernel))
  · rw [← hclass]
    refine (decode_frameworkUrl hmarks (fun m hm => hroot m (List.mem_cons_of_mem _ hm))
      (fun m hm => hshort m (List.mem_cons_of_mem _ hm)) ?_ (congrArg Prod.fst hclass)).1 (.inr ?_)
    · exact ⟨"bookmarkable", by decide, by decide +kernel⟩
    · intro m hm houtranks
      rw [List.mem_singleton.1 hm] at houtranks
      exact absurd houtranks.2 (by decide)

/-- Two placeholders take the URL of the class of the home page, which is not read back then. -/
theorem decode_home_of_pairs :
    ({ home := "Home" } : Context).marks.Nodup ∧
    (∀ m ∈ [atPairs], m.segments.head? ≠ some (.literal "trellis")) ∧
    (∀ m ∈ [atPairs], m.segments.length < 998) ∧
    Mapper.isBelow { home := "Home" } "bookmarkable" (Url.parse "/trellis/bookmarkable/Home") = true ∧
    ((mapper { context := { home := "Home" } }).decode []
      (Request.ofText "/trellis/bookmarkable/Home")).1 = some (.bookmarkable "Home" {}) ∧
    ((mapper { context := { home := "Home" }, mounts := [atPairs] }).decode []
      (Request.ofText "/trellis/bookmarkable/Home")).1 =
        some (.bookmarkable "Any" { indexed := ["Home"]
                                    named := [⟨"a", "trellis"⟩, ⟨"b", "bookmarkable"⟩] }) := by
  have hmarks : ({ home := "Home" } : Context).marks.Nodup := by decide
  refine ⟨hmarks, by decide, by decide, by decide +kernel, ?_, ?_⟩
  · rw [decode_eq hmarks rfl]
    decide +kernel
  · have hscores : ∀ x ∈ framework { home := "Home" },
        x.score [] (Request.ofText "/trellis/bookmarkable/Home") ≤
          (atPairs.mapper { home := "Home" }).score []
            (Request.ofText "/trellis/bookmarkable/Home") := by decide +kernel
    obtain ⟨best, hbest, -, hdecode⟩ := decode_of_higher (List.mem_singleton_self atPairs)
      (by show _ = true; decide +kernel) fun x hx _ => hscores x hx
    rw [hdecode, List.mem_singleton.1 hbest]
    decide +kernel

end Site

end StatefulPages
