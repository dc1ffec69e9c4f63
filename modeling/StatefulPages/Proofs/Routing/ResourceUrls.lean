import StatefulPages.Proofs.Routing.ReplayedResponses

/-!
# Resources from their URLs

A site writes a URL for each resource. Its text is read as the resource again, unless the URL cannot
say all of it: the segment that stands for `..` is read as `..` wherever it came from, indexed
parameters are left out, and names that say nothing are not read at all.

* `Context.SaysResource`: what the URL of a resource says;
* `Mapper.decodeResource?_url_iff`: when the mapper of resources reads back what it wrote;
* `Site.decode_resource_iff`: a site reads a resource exactly where that mapper does;
* `Site.roundTrips_resource_iff`: when a site reads a resource back.
-/

namespace StatefulPages

/-! ## Names -/

namespace Mapper

variable {c : Context} {name part : String} {parts : List String}

theorem nameParts_ne_nil (name : String) : nameParts name ≠ [] := by
  rw [nameParts, Ne, List.map_eq_nil_iff]
  exact Text.splitAll_ne_nil '/' name.toList

theorem notMem_of_mem_nameParts (h : part ∈ nameParts name) : '/' ∉ part.toList := by
  obtain ⟨cs, hcs, rfl⟩ := List.mem_map.1 h
  rw [String.toList_ofList]
  exact Text.sep_notMem_of_mem_splitAll hcs

/-- Joining the parts of a name gives the name back. -/
theorem intercalate_nameParts (name : String) : "/".intercalate (nameParts name) = name := by
  have hread : String.toList ∘ String.ofList = id := funext fun _ => String.toList_ofList
  rw [← String.toList_inj, String.toList_intercalate, nameParts, List.map_map, hread, List.map_id]
  exact Text.intercalate_splitAll '/' name.toList

/-- Parts that were joined, none of which holds a `/`, are the parts of the name. -/
theorem nameParts_intercalate (hne : parts ≠ []) (h : ∀ part ∈ parts, '/' ∉ part.toList) :
    nameParts ("/".intercalate parts) = parts := by
  have hsplit : Text.splitAll '/' ("/".intercalate parts).toList = parts.map String.toList := by
    rw [String.toList_intercalate]
    apply Text.splitAll_intercalate
    · rwa [Ne, List.map_eq_nil_iff]
    · intro cs hcs
      obtain ⟨part, hpart, rfl⟩ := List.mem_map.1 hcs
      exact h part hpart
  have hread : String.ofList ∘ String.toList = id := funext fun _ => String.ofList_toList
  rw [nameParts, hsplit, List.map_map, hread, List.map_id]

/-- All parts are empty only if the name has no character but `/`. -/
theorem nameParts_all_empty_iff :
    (∀ part ∈ nameParts name, part = "") ↔ ∀ ch ∈ name.toList, ch = '/' := by
  have hchars (ch : Char) (hch : ch ≠ '/') :
      (∃ cs ∈ Text.splitAll '/' name.toList, ch ∈ cs) ↔ ch ∈ name.toList :=
    Text.exists_mem_splitAll_iff hch
  constructor
  · intro hempty ch hmem
    by_contra hch
    obtain ⟨cs, hcs, hmem⟩ := (hchars ch hch).2 hmem
    have hnil := hempty _ (List.mem_map_of_mem hcs)
    rw [String.ofList_eq_empty_iff] at hnil
    rw [hnil] at hmem
    exact List.not_mem_nil hmem
  · intro hslash part hpart
    obtain ⟨cs, hcs, rfl⟩ := List.mem_map.1 hpart
    rw [String.ofList_eq_empty_iff, List.eq_nil_iff_forall_not_mem]
    intro ch hmem
    have hch : ch ≠ '/' := fun heq => Text.sep_notMem_of_mem_splitAll hcs (heq ▸ hmem)
    exact hch (hslash ch ((hchars ch hch).1 ⟨cs, hcs, hmem⟩))

/-! ## Segments -/

/-- It makes no difference for reading that `..` is written as another segment. -/
theorem partOfSegment_segmentOfPart (c : Context) (part : String) :
    partOfSegment c (segmentOfPart c part) = partOfSegment c part := by
  by_cases hup : part = ".."
  · rw [segmentOfPart, if_pos hup, partOfSegment, if_pos rfl, partOfSegment, hup, ite_self]
  · rw [segmentOfPart, if_neg hup]

theorem partOfSegment_eq_self_iff :
    partOfSegment c part = part ↔ (part = c.parentMark → part = "..") := by
  rw [partOfSegment]
  split
  · rename_i hmark
    rw [eq_comm]
    exact ⟨fun h _ => h, fun h => h hmark⟩
  · rename_i hmark
    exact iff_of_true rfl fun h => absurd h hmark

theorem notMem_partOfSegment (h : '/' ∉ part.toList) : '/' ∉ (partOfSegment c part).toList := by
  rw [partOfSegment]
  split
  · decide
  · exact h

theorem map_partOfSegment_eq_self_iff :
    parts.map (partOfSegment c) = parts ↔ ∀ part ∈ parts, part = c.parentMark → part = ".." := by
  have hmap : parts.map (partOfSegment c) = parts.map id ↔
      ∀ part ∈ parts, partOfSegment c part = part := List.map_inj_left
  rw [List.map_id] at hmap
  simpa only [partOfSegment_eq_self_iff] using hmap

/-- The parts that are read back make up the same name only if each of them is the same. -/
theorem intercalate_partOfSegment_iff :
    "/".intercalate ((nameParts name).map (partOfSegment c)) = name ↔
      (nameParts name).map (partOfSegment c) = nameParts name := by
  constructor
  · intro h
    have hparts : nameParts ("/".intercalate ((nameParts name).map (partOfSegment c))) =
        (nameParts name).map (partOfSegment c) := by
      apply nameParts_intercalate
      · rw [Ne, List.map_eq_nil_iff]
        exact nameParts_ne_nil name
      · intro part hpart
        obtain ⟨written, hwritten, rfl⟩ := List.mem_map.1 hpart
        exact notMem_partOfSegment (notMem_of_mem_nameParts hwritten)
    rw [← hparts, h]
  · intro h
    rw [h, intercalate_nameParts]

end Mapper

/-! ## The mapper of resources -/

/-- A handler is the same as that of a resource if it is one of the resource, with the same parameters
up to order. -/
theorem Handler.beq_resource_iff {h : Option Handler} {r : ResourceName} {p : Parameters} :
    (h == some (.resource r p)) = true ↔
      ∃ q : Parameters, h = some (.resource r q) ∧ q.indexed = p.indexed ∧ q.named.Perm p.named := by
  constructor
  · intro heq
    rcases h with _ | ⟨_ | _ | _ | ⟨r', q⟩ | _ | _⟩
    case some.resource =>
      change (r' == r && q == p) = true at heq
      rw [Bool.and_eq_true, beq_iff_eq, Parameters.beq_iff] at heq
      exact ⟨q, by rw [heq.1], heq.2⟩
    all_goals cases heq
  · rintro ⟨q, rfl, heq⟩
    show (r == r && q == p) = true
    rw [Bool.and_eq_true, beq_iff_eq, Parameters.beq_iff]
    exact ⟨rfl, heq⟩

/-- Indicates a resource that its URL says: it has a scope and a name, no part of the name is written
like the folder above without being it, and all parameters are written and show. -/
structure Context.SaysResource (c : Context) (resource : ResourceName) (p : Parameters) : Prop where
  scope : resource.scope ≠ ""
  name : ∃ ch ∈ resource.name.toList, ch ≠ '/'
  parts : ∀ part ∈ Mapper.nameParts resource.name, part = c.parentMark → part = ".."
  indexed : p.indexed = []
  named : ∀ v ∈ p.named, ¬ (v.name = "" ∧ v.value = "")

namespace Mapper

variable {c : Context} {resource : ResourceName} {p : Parameters}

/-- The URL of a resource. -/
def resourceUrl (c : Context) (resource : ResourceName) (p : Parameters) : Url where
  segments := [c.root, c.resourceMark, resource.scope] ++
    (nameParts resource.name).map (segmentOfPart c)
  query := p.named

/-- What the text of the URL of a resource is read as. -/
theorem decodeResource?_url (c : Context) (resource : ResourceName) (p : Parameters) :
    decodeResource? c { url := (resourceUrl c resource p).reread } =
      if resource.scope = "" ∨ ∀ part ∈ (nameParts resource.name).map (partOfSegment c), part = ""
      then none
      else some (.resource
        { scope := resource.scope
          name := "/".intercalate ((nameParts resource.name).map (partOfSegment c)) }
        { named := p.named.filter (· ≠ Url.blank) }) := by
  have hsegments : (resourceUrl c resource p).reread.segments =
      c.root :: c.resourceMark :: resource.scope ::
        (nameParts resource.name).map (segmentOfPart c) :=
    if_neg fun h => by simp [resourceUrl] at h
  have hbelow : isBelow c c.resourceMark (resourceUrl c resource p).reread = true :=
    Context.isBelow_iff.2 ⟨_, hsegments⟩
  have hread : partOfSegment c ∘ segmentOfPart c = partOfSegment c :=
    funext (partOfSegment_segmentOfPart c)
  rw [decodeResource?, if_pos hbelow, hsegments]
  show (if _ ∨ (List.map _ _).all _ = true then none else _) = _
  rw [List.map_map, hread]
  simp only [List.all_eq_true, decide_eq_true_eq]
  rfl

/-- The mapper of resources reads back what it wrote exactly if the URL says all of the resource. -/
theorem decodeResource?_url_iff :
    (decodeResource? c { url := (resourceUrl c resource p).reread } == some (.resource resource p)) =
      true ↔ c.SaysResource resource p := by
  have hnamed : (∀ ch ∈ resource.name.toList, ch = '/') ↔ ¬ ∃ ch ∈ resource.name.toList, ch ≠ '/' := by
    simp only [not_exists, not_and, not_not]
  rw [decodeResource?_url]
  split
  · rename_i hnone
    refine iff_of_false Bool.false_ne_true fun hsaid => ?_
    rcases hnone with hscope | hempty
    · exact hsaid.scope hscope
    · rw [map_partOfSegment_eq_self_iff.2 hsaid.parts, nameParts_all_empty_iff, hnamed] at hempty
      exact hempty hsaid.name
  · rename_i hread
    rw [not_or] at hread
    rw [Handler.beq_resource_iff]
    simp only [Option.some.injEq, Handler.resource.injEq]
    constructor
    · rintro ⟨_, ⟨hresource, rfl⟩, hindexed, hperm⟩
      have hparts := intercalate_partOfSegment_iff.1 (congrArg ResourceName.name hresource)
      rw [hparts, nameParts_all_empty_iff, hnamed, not_not] at hread
      refine ⟨hread.1, hread.2, map_partOfSegment_eq_self_iff.1 hparts, hindexed.symm, ?_⟩
      intro v hv
      have hkept := List.length_filter_eq_length_iff.1 hperm.length_eq v hv
      exact Mount.blank_iff.1 (of_decide_eq_true hkept)
    · intro hsaid
      have hshown : p.named.filter (· ≠ Url.blank) = p.named :=
        List.filter_eq_self.2 fun v hv => decide_eq_true (Mount.blank_iff.2 (hsaid.named v hv))
      rw [map_partOfSegment_eq_self_iff.2 hsaid.parts, intercalate_nameParts, hshown]
      exact ⟨_, ⟨rfl, rfl⟩, hsaid.indexed.symm, List.Perm.refl _⟩

end Mapper

/-! ## Sites -/

section

variable {c : Context} {resource : ResourceName} {p : Parameters}

/-- No address asks for a resource. -/
theorem Context.handlerFor?_ne_resource {page : Option UInt32 → PageSource}
    {component : Option ComponentAddress} :
    c.handlerFor? page component ≠ some (.resource resource p) := by
  intro hread
  cases component with
  | none => cases hread
  | some component =>
    obtain ⟨interface, -, hread⟩ := Option.map_eq_some_iff.1 hread
    cases hread

/-- No link asks for a resource. -/
theorem PageLink.handler?_ne_resource {link : PageLink} :
    link.handler? c ≠ some (.resource resource p) := by
  rw [handler?]
  split
  · intro hread
    cases hread
  · exact Context.handlerFor?_ne_resource

end

namespace Site

variable {s : Site} {m : Mapper} {b : Buffer} {r : Request} {resource : ResourceName}
  {p : Parameters}

/-- A resource is read by the mapper of resources only. -/
theorem decodeResource?_of_mem_mappers (hm : m ∈ s.mappers)
    (hread : (m.decode b r).1 = some (.resource resource p)) :
    Mapper.decodeResource? s.context r = some (.resource resource p) := by
  rcases mem_mappers.1 hm with ⟨mount, -, rfl⟩ | hm
  · change mount.decode? s.context r = _ at hread
    rw [Mount.decode?] at hread
    split at hread
    · cases hread
    · obtain ⟨link, -, hread⟩ := Option.bind_eq_some_iff.1 hread
      exact absurd hread PageLink.handler?_ne_resource
  · rcases mem_framework.1 hm with rfl | rfl | rfl | rfl | rfl
    · cases hresponse : b.response? r.url with
      | none =>
        rw [decode_buffered hresponse] at hread
        cases hread
      | some response =>
        simp only [Mapper.buffered, hresponse] at hread
        cases hread
    · exact hread
    · obtain ⟨pageClass, -, hread⟩ := Context.link_of_decodeBookmarkable? hread
      exact absurd hread PageLink.handler?_ne_resource
    · obtain ⟨a, id, -, -, hread⟩ := Context.address_of_decodePageInstance? hread
      exact absurd hread Context.handlerFor?_ne_resource
    · exact absurd (Context.link_of_homePage hread) PageLink.handler?_ne_resource

/-- What the mapper of resources reads, no other mapper has precedence for, if no response waits. -/
theorem isBest_resource (hshort : ∀ m ∈ s.mounts, m.segments.length < Mapper.maxScore)
    (hnone : b.response? r.url = none) (hreads : (Mapper.resource s.context).Reads b r) :
    Mapper.IsBest s.mappers b r (.resource s.context) := by
  obtain ⟨h, hread⟩ := Option.isSome_iff_exists.1 hreads
  have hscore : (Mapper.resource s.context).score b r = Mapper.maxScore :=
    if_pos (Context.isBelow_of_decodeResource? hread)
  apply isBest_of_maxScore hshort hscore
  refine ⟨hreads, [.buffered], _, rfl, ?_, ?_⟩
  · intro x hx hxreads
    rw [List.mem_singleton.1 hx, reads_buffered_iff, hnone] at hxreads
    cases hxreads
  · intro x hx _
    rw [hscore]
    exact score_framework_le (List.mem_cons_of_mem _ (List.mem_cons_of_mem _ hx)) b r

/-- A site reads a request for which no response waits as a resource exactly if its mapper of resources
does. -/
theorem decode_resource_iff (hshort : ∀ m ∈ s.mounts, m.segments.length < Mapper.maxScore)
    (hnone : b.response? r.url = none) :
    (s.mapper.decode b r).1 = some (.resource resource p) ↔
      Mapper.decodeResource? s.context r = some (.resource resource p) := by
  constructor
  · intro hread
    obtain ⟨m, hbest⟩ := Mapper.exists_isBest (Mapper.exists_reads_of_decode
      (fun _ => keep_of_not_reads) hread)
    rw [decode_of_isBest hbest] at hread
    exact decodeResource?_of_mem_mappers hbest.mem hread
  · intro hread
    have hreads : (Mapper.resource s.context).Reads b r := Option.isSome_iff_exists.2 ⟨_, hread⟩
    rw [decode_of_isBest (isBest_resource hshort hnone hreads)]
    exact hread

/-- Every resource is written by the mapper of resources. -/
theorem encode_resource (s : Site) (pages : Pages) (resource : ResourceName) (p : Parameters) :
    s.mapper.encode pages (.resource resource p) =
      some (Mapper.resourceUrl s.context resource p) := by
  show (s.mounts.map (·.mapper s.context) ++ framework s.context).findSome?
    (·.encode pages (.resource resource p)) = _
  have hmounts : (s.mounts.map (·.mapper s.context)).findSome?
      (·.encode pages (.resource resource p)) = none := by
    rw [List.findSome?_eq_none_iff]
    intro m hm
    obtain ⟨mount, -, rfl⟩ := List.mem_map.1 hm
    rfl
  rw [List.findSome?_append, hmounts, Option.none_or]
  rfl

/-- A site writes a URL for every resource, and reads the resource back from it exactly if the URL says
all of the resource. -/
theorem roundTrips_resource_iff (hshort : ∀ m ∈ s.mounts, m.segments.length < Mapper.maxScore)
    (pages : Pages) (resource : ResourceName) (p : Parameters) :
    (∃ url, s.mapper.encode pages (.resource resource p) = some url) ∧
    (s.mapper.RoundTrips pages [] (.resource resource p) ↔ s.context.SaysResource resource p) := by
  have hencode := s.encode_resource pages resource p
  have hdecode (q : Parameters) :
      (s.mapper.decode [] { url := (Mapper.resourceUrl s.context resource p).reread }).1 =
          some (.resource resource q) ↔
        Mapper.decodeResource? s.context { url := (Mapper.resourceUrl s.context resource p).reread } =
          some (.resource resource q) :=
    decode_resource_iff hshort rfl
  refine ⟨⟨_, hencode⟩, ?_⟩
  rw [Mapper.roundTrips_iff_reread hencode, ← Mapper.decodeResource?_url_iff,
    Handler.beq_resource_iff, Handler.beq_resource_iff]
  simp only [hdecode]

/-- A style sheet in the folder above is found again; a file in a folder with the name that stands for
the folder above is not. -/
theorem roundTrips_resource_iff_of_users :
    (∀ m ∈ ofUsers.mounts, m.segments.length < Mapper.maxScore) ∧
    ofUsers.mapper.RoundTrips .empty []
      (.resource ⟨"widgets", "../css/style.css"⟩ { named := [⟨"v", "3"⟩] }) ∧
    ¬ ofUsers.mapper.RoundTrips .empty [] (.resource ⟨"widgets", "$up$/style.css"⟩ {}) := by
  have hshort : ∀ m ∈ ofUsers.mounts, m.segments.length < Mapper.maxScore := by decide
  refine ⟨hshort, (roundTrips_resource_iff hshort .empty _ _).2.2 ?_, fun hread => ?_⟩
  · exact ⟨by decide, ⟨'.', by decide, by decide⟩, by decide, rfl, by decide⟩
  · have hsaid := (roundTrips_resource_iff hshort .empty _ _).2.1 hread
    exact absurd hsaid.parts (by decide)

end Site

end StatefulPages
