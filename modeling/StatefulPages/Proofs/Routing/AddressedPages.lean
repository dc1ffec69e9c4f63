import StatefulPages.Proofs.Routing.MountedInstances

/-!
# Which page the URL of a page addresses

The URL of a page that is there begins its query with the id of the page. But the first of the page's
own parameters that is called `page-id` is in the query too, and if its value is an id, the URL is read
as one of the page with that id. So the parameters of a page decide which page its URL addresses,
unless they name no page but the page itself.

* `Mount.decode?_url_ofPage`: what the URL of a page at a mount is read as;
* `Mount.NamesOnly`: the parameters that name no other page;
* `Mount.ids_eq_iff_namesOnly`: for these, and no others, all URLs of a page address that page.
-/

namespace StatefulPages

namespace Mount

variable {m : Mount} {c : Context} {pages : Pages} {b : Buffer} {id : PageId}
  {page page₁ page₂ : PageSource} {policy : RedirectPolicy}

/-- The URL of a page at a mount is read as that of a page of the class, unless its path is not shown.
The id is the one that the parameters name, and if they name none that of the page. -/
theorem decode?_url_ofPage (hencoder : m.encoder = .standard) (c : Context) (id : PageId)
    (p : Parameters) :
    m.decode? c { url := (m.url (some (.ofPage id)) p).reread } =
      if (fill m.segments p).1 ++ p.indexed = [""] then none
      else some (.render
        { id := some ((Request.idIn? (m.others p)).getD id), pageClass := some m.pageClass
          parameters :=
            { indexed := p.indexed
              named := (m.others p).filter (· ≠ Url.blank) ++
                captures m.segments ((fill m.segments p).1 ++ p.indexed) } } .auto) := by
  have hsaid := Address.isSaid_ofPage id
  have hid : (Request.idIn? (m.others p)).or (some id) =
      some ((Request.idIn? (m.others p)).getD id) := by
    cases Request.idIn? (m.others p) <;> rfl
  rw [url_address hencoder hsaid, Url.reread, Url.filter_address hsaid, decode?, if_neg]
  · split
    · rw [link?, if_neg (by simp [fits, m.ne_nil])]
      rfl
    · rw [link?, if_pos (fits_fill ..), Request.address?_of_said rfl hsaid rfl, hencoder,
        Encoder.readParameters_address hsaid rfl, Request.idIn?_filter,
        List.drop_left' (length_fill m.segments p)]
      rw [← hid]
      rfl
  · simp [takesHome, Url.isEmpty]

/-- The URL of a page at a mount begins its query with the id of the page. -/
theorem encode_ofPage (hid : PageLink.idInUrl pages page = some id)
    (hclass : page.pageClass = some m.pageClass) (c : Context) (policy : RedirectPolicy) :
    (m.mapper c).encode pages (.render page policy) =
      some (m.url (some (.ofPage id)) page.parameters) := by
  simp [mapper, Mapper.ofRequests, PageLink.ofHandler?, PageLink.acceptedClass?, hclass, hid]

theorem id_of_read (hencoder : m.encoder = .standard) {p : Parameters} {source : PageSource}
    (hread : ((m.mapper c).decode b
        (Request.ofText (m.url (some (.ofPage id)) p).text)).1 = some (.render source policy)) :
    source.id = some ((Request.idIn? (m.others p)).getD id) := by
  change m.decode? c { url := Url.parse _ } = _ at hread
  rw [Url.parse_text, decode?_url_ofPage hencoder] at hread
  split at hread
  · cases hread
  · cases hread
    rfl

/-- Indicates parameters that name no page but this one, those of placeholders apart. -/
def NamesOnly (m : Mount) (id : PageId) (p : Parameters) : Prop :=
  ∀ other ∈ Request.idIn? (m.others p), other = id

theorem getD_eq_iff_namesOnly {p : Parameters} :
    (Request.idIn? (m.others p)).getD id = id ↔ m.NamesOnly id p := by
  rw [NamesOnly]
  cases Request.idIn? (m.others p) <;> simp

/-- With the standard encoder, the URLs of a page with two sets of parameters both address that page
exactly if neither set names another page. -/
theorem ids_eq_iff_namesOnly (hencoder : m.encoder = .standard)
    (hid₁ : PageLink.idInUrl pages page₁ = some id) (hid₂ : PageLink.idInUrl pages page₂ = some id)
    (hclass₁ : page₁.pageClass = some m.pageClass) (hclass₂ : page₂.pageClass = some m.pageClass)
    (c : Context) (b : Buffer) (policy₁ policy₂ : RedirectPolicy) :
    ∃ url₁ url₂, (m.mapper c).encode pages (.render page₁ policy₁) = some url₁ ∧
      (m.mapper c).encode pages (.render page₂ policy₂) = some url₂ ∧
      ∀ source₁ read₁ source₂ read₂,
        ((m.mapper c).decode b (Request.ofText url₁.text)).1 = some (.render source₁ read₁) →
        ((m.mapper c).decode b (Request.ofText url₂.text)).1 = some (.render source₂ read₂) →
        (source₁.id = source₂.id ∧ source₁.id = some id ↔
          m.NamesOnly id page₁.parameters ∧ m.NamesOnly id page₂.parameters) := by
  refine ⟨_, _, encode_ofPage hid₁ hclass₁ c policy₁, encode_ofPage hid₂ hclass₂ c policy₂, ?_⟩
  intro source₁ read₁ source₂ read₂ hread₁ hread₂
  rw [id_of_read hencoder hread₁, id_of_read hencoder hread₂, Option.some.injEq, Option.some.injEq,
    ← getD_eq_iff_namesOnly, ← getD_eq_iff_namesOnly]
  constructor
  · intro h
    exact ⟨h.2, h.1.symm.trans h.2⟩
  · intro h
    exact ⟨h.1.trans h.2.symm, h.1⟩

/-- A parameter called `page-id` may name the page itself, or no page. -/
theorem ids_eq_iff_namesOnly_of_user :
    PageLink.idInUrl .empty (userPage " +5 " none) = some 5 ∧
    PageLink.idInUrl .empty (userPage "seven" none) = some 5 ∧
    (((ofUsers .standard).mapper { home := "Home" }).decode []
      (Request.ofText "/users/42?5&page-id=%20%2B5%20")).1 =
        some (.render { id := some 5, pageClass := some "User"
                        parameters := { named := [⟨"page-id", " +5 "⟩, ⟨"id", "42"⟩] } } .auto) ∧
    (((ofUsers .standard).mapper { home := "Home" }).decode []
      (Request.ofText "/users/42?5&page-id=seven")).1 =
        some (.render { id := some 5, pageClass := some "User"
                        parameters := { named := [⟨"page-id", "seven"⟩, ⟨"id", "42"⟩] } } .auto) ∧
    (ofUsers .standard).NamesOnly 5 (userPage " +5 " none).parameters ∧
    (ofUsers .standard).NamesOnly 5 (userPage "seven" none).parameters := by
  have hid₁ : PageLink.idInUrl .empty (userPage " +5 " none) = some 5 := by decide
  have hid₂ : PageLink.idInUrl .empty (userPage "seven" none) = some 5 := by decide
  have hread₁ : (((ofUsers .standard).mapper { home := "Home" }).decode []
      (Request.ofText "/users/42?5&page-id=%20%2B5%20")).1 =
        some (.render { id := some 5, pageClass := some "User"
                        parameters := { named := [⟨"page-id", " +5 "⟩, ⟨"id", "42"⟩] } } .auto) := by
    decide +kernel
  have hread₂ : (((ofUsers .standard).mapper { home := "Home" }).decode []
      (Request.ofText "/users/42?5&page-id=seven")).1 =
        some (.render { id := some 5, pageClass := some "User"
                        parameters := { named := [⟨"page-id", "seven"⟩, ⟨"id", "42"⟩] } } .auto) := by
    decide +kernel
  obtain ⟨url₁, url₂, hurl₁, hurl₂, hids⟩ := ids_eq_iff_namesOnly (m := ofUsers .standard) rfl
    hid₁ hid₂ rfl rfl { home := "Home" } [] .auto .auto
  have htext₁ : url₁.text = "/users/42?5&page-id=%20%2B5%20" := by
    rw [← Option.some_inj.1 hurl₁]
    decide +kernel
  have htext₂ : url₂.text = "/users/42?5&page-id=seven" := by
    rw [← Option.some_inj.1 hurl₂]
    decide +kernel
  rw [htext₁, htext₂] at hids
  exact ⟨hid₁, hid₂, hread₁, hread₂, (hids _ _ _ _ hread₁ hread₂).1 ⟨rfl, rfl⟩⟩

/-- With a parameter that names page 7, the URL of page 5 addresses page 7. -/
theorem id_of_user_naming_other :
    ((ofUsers .standard).mapper { home := "Home" }).encode .empty
      (.render { id := some 5, pageClass := some "User"
                 parameters := { named := [⟨"id", "42"⟩] } } .auto) =
        some (Url.parse "/users/42?5") ∧
    (((ofUsers .standard).mapper { home := "Home" }).decode []
      (Request.ofText "/users/42?5")).1 =
        some (.render { id := some 5, pageClass := some "User"
                        parameters := { named := [⟨"id", "42"⟩] } } .auto) ∧
    ((ofUsers .standard).mapper { home := "Home" }).encode .empty
      (.render (userPage "7" none) .auto) = some (Url.parse "/users/42?5&page-id=7") ∧
    (((ofUsers .standard).mapper { home := "Home" }).decode []
      (Request.ofText "/users/42?5&page-id=7")).1 =
        some (.render { id := some 7, pageClass := some "User"
                        parameters := { named := [⟨"page-id", "7"⟩, ⟨"id", "42"⟩] } } .auto) := by
  refine ⟨by decide +kernel, by decide +kernel, by decide +kernel, by decide +kernel⟩

end Mount

end StatefulPages
