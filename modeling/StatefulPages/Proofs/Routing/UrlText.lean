import StatefulPages.Proofs.Text.Escapes
import StatefulPages.Url

/-!
# URLs from their text

Reading the text of any URL gives the URL, but a single empty segment has become none, and parameters
without name and value are gone.

* `Url.parse_text`: what is read from the text of a URL (`Url.reread`);
* `Url.text_reread_eq_iff`: when that has the same text;
* `Url.parse_text_eq_self_iff`: which URLs are read back from their text, and for which texts the URL
  that was read is.
-/

namespace StatefulPages.Url

/-- A parameter of which the text shows nothing. -/
def blank : NamedValue := { name := "" }

/-- What is left of a URL when its text is read. -/
def reread (url : Url) : Url :=
  { segments := if url.segments = [""] then [] else url.segments
    query := url.query.filter (· ≠ blank) }

/-! ## Parts -/

theorem decodePart_encode {plain : Char → Bool} (hplain : plain '%' = false) (s : String) :
    decodePart (Text.Percent.encode plain s.toList) = s := by
  rw [decodePart, Text.Percent.decode_encode hplain, String.ofList_toList]

theorem decodePart_eq_iff {cs : List Char} : decodePart cs = "" ↔ cs = [] := by
  rw [decodePart, String.ofList_eq_empty_iff, Text.Percent.decode_eq_nil_iff]

theorem encode_toList_eq_nil_iff {plain : Char → Bool} {s : String} :
    Text.Percent.encode plain s.toList = [] ↔ s = "" := by
  rw [Text.Percent.encode_eq_nil_iff, String.toList_eq_nil_iff]

/-- No separator of a query is in an escaped name or value. -/
theorem notMem_queryPart {sep : Char} (hsep : sep ∈ ['&', '=']) (cs : List Char) :
    sep ∉ Text.Percent.encode plainInQuery cs := by
  simp only [List.mem_cons, List.not_mem_nil, or_false] at hsep
  rcases hsep with rfl | rfl
  · exact Text.Percent.notMem_encode (by decide) (by decide) (by decide) cs
  · exact Text.Percent.notMem_encode (by decide) (by decide) (by decide) cs

/-- No separator of a path is in an escaped segment, nor the one in front of the query. -/
theorem notMem_segmentPart {sep : Char} (hsep : sep ∈ ['/', '?']) (cs : List Char) :
    sep ∉ Text.Percent.encode plainInSegment cs := by
  simp only [List.mem_cons, List.not_mem_nil, or_false] at hsep
  rcases hsep with rfl | rfl
  · exact Text.Percent.notMem_encode (by decide) (by decide) (by decide) cs
  · exact Text.Percent.notMem_encode (by decide) (by decide) (by decide) cs

/-! ## The query -/

theorem parseParameter_parameterText (p : NamedValue) : parseParameter (parameterText p) = p := by
  have hname : '=' ∉ Text.Percent.encode plainInQuery p.name.toList := notMem_queryPart (by simp) _
  have hplain : plainInQuery '%' = false := by decide
  by_cases hvalue : p.value = ""
  · rw [parameterText, if_pos hvalue, List.append_nil, parseParameter,
      Text.splitFirst_of_notMem hname]
    show ({ name := decodePart _ } : NamedValue) = p
    rw [decodePart_encode hplain, ← hvalue]
  · rw [parameterText, if_neg hvalue, parseParameter, Text.splitFirst_append_cons hname]
    show ({ name := decodePart _, value := decodePart _ } : NamedValue) = p
    rw [decodePart_encode hplain, decodePart_encode hplain]

theorem parseParameter_comp : parseParameter ∘ parameterText = id :=
  funext parseParameter_parameterText

theorem parameterText_eq_nil_iff {p : NamedValue} : parameterText p = [] ↔ p = blank := by
  constructor
  · intro h
    rw [← parseParameter_parameterText p, h]
    decide
  · intro h
    rw [h]
    decide

theorem notMem_parameterText (p : NamedValue) : '&' ∉ parameterText p := by
  have hpart : ∀ cs, '&' ∉ Text.Percent.encode plainInQuery cs := notMem_queryPart (by simp)
  rw [parameterText, List.mem_append, not_or]
  refine ⟨hpart _, ?_⟩
  split
  · exact List.not_mem_nil
  · rw [List.mem_cons, not_or]
    exact ⟨by decide, hpart _⟩

theorem filter_map_parameterText (query : List NamedValue) :
    ((query.map parameterText).filter (· ≠ [])).map parseParameter =
      query.filter (· ≠ blank) := by
  rw [List.filter_map, List.map_map, parseParameter_comp, List.map_id]
  apply List.filter_congr
  intro p _
  simp [parameterText_eq_nil_iff]

/-- The parameters of a query are cut where they were joined. -/
theorem splitAll_parameterTexts {query : List NamedValue} (h : query ≠ []) :
    Text.splitAll '&' (['&'].intercalate (query.map parameterText)) = query.map parameterText := by
  have hparts : ∀ part ∈ query.map parameterText, '&' ∉ part := by
    intro part hpart
    obtain ⟨p, -, rfl⟩ := List.mem_map.1 hpart
    exact notMem_parameterText p
  exact Text.splitAll_intercalate (by simpa using h) hparts

theorem parseQuery_queryText {query : List NamedValue} (h : query ≠ []) :
    parseQuery (['&'].intercalate (query.map parameterText)) = query.filter (· ≠ blank) := by
  rw [parseQuery, splitAll_parameterTexts h, filter_map_parameterText]

/-- Queries with the same text are equal: the separators show also the parameters of which the text
shows nothing else. -/
theorem queryText_injective {query query' : List NamedValue} (h : queryText query = queryText query') :
    query = query' := by
  cases query with
  | nil =>
    cases query' with
    | nil => rfl
    | cons p' query' => cases h
  | cons p query =>
    cases query' with
    | nil => cases h
    | cons p' query' =>
      have hparts := congrArg (Text.splitAll '&') (List.cons.inj h).2
      rw [splitAll_parameterTexts (List.cons_ne_nil _ _),
        splitAll_parameterTexts (List.cons_ne_nil _ _)] at hparts
      have hread := congrArg (List.map parseParameter) hparts
      rwa [List.map_map, List.map_map, parseParameter_comp, List.map_id, List.map_id] at hread

/-! ## The path -/

theorem notMem_pathText (segments : List String) : '?' ∉ pathText segments := by
  have hpart : ∀ cs, '?' ∉ Text.Percent.encode plainInSegment cs := notMem_segmentPart (by simp)
  rw [pathText]
  induction segments with
  | nil => simp
  | cons s segments ih =>
    cases segments with
    | nil => simpa using hpart s.toList
    | cons t segments =>
      rw [List.map_cons, List.map_cons, List.intercalate_cons_cons, List.mem_append, List.mem_append,
        not_or, not_or]
      exact ⟨⟨hpart _, by decide⟩, ih⟩

/-- The path of a single empty segment and that of none are written alike, as no text. -/
theorem pathText_eq_nil_iff {segments : List String} :
    pathText segments = [] ↔ segments = [] ∨ segments = [""] := by
  rw [pathText]
  cases segments with
  | nil => simp
  | cons s segments =>
    cases segments with
    | nil => simp [encode_toList_eq_nil_iff]
    | cons t segments => simp [List.intercalate_cons_cons]

theorem parsePath_pathText (segments : List String) :
    parsePath (pathText segments) = if segments = [""] then [] else segments := by
  by_cases hnil : pathText segments = []
  · rw [parsePath, if_pos hnil]
    rcases pathText_eq_nil_iff.1 hnil with rfl | rfl
    · rfl
    · rfl
  · rw [pathText_eq_nil_iff, not_or] at hnil
    have hparts : ∀ part ∈ segments.map fun s => Text.Percent.encode plainInSegment s.toList,
        '/' ∉ part := by
      intro part hpart
      obtain ⟨s, -, rfl⟩ := List.mem_map.1 hpart
      exact notMem_segmentPart (by simp) s.toList
    have hread : decodePart ∘ (fun s : String => Text.Percent.encode plainInSegment s.toList) = id :=
      funext (decodePart_encode (by decide))
    rw [parsePath, if_neg (by rw [pathText_eq_nil_iff, not_or]; exact hnil), pathText,
      Text.splitAll_intercalate (by simpa using hnil.1) hparts, List.map_map, hread, List.map_id,
      if_neg hnil.2]

/-! ## URLs -/

theorem parseRelative_text (url : Url) :
    parseRelative (pathText url.segments ++ queryText url.query) = url.reread := by
  have hpath := notMem_pathText url.segments
  by_cases hquery : url.query = []
  · rw [hquery, queryText, List.append_nil, parseRelative, Text.splitFirst_of_notMem hpath]
    show ({ segments := parsePath _, query := [] } : Url) = _
    rw [parsePath_pathText, reread, hquery]
    rfl
  · have htext : queryText url.query = '?' :: ['&'].intercalate (url.query.map parameterText) := by
      cases hq : url.query with
      | nil => exact absurd hq hquery
      | cons p query => rfl
    rw [htext, parseRelative, Text.splitFirst_append_cons hpath]
    show ({ segments := parsePath _, query := parseQuery _ } : Url) = _
    rw [parsePath_pathText, parseQuery_queryText hquery, reread]

/-- The text of a URL is read as the URL, up to the parts that the text does not show. -/
theorem parse_text (url : Url) : parse url.text = url.reread := by
  rw [parse, text, String.toList_ofList, chars, parseChars, parseRelative_text]

/-- A URL is read back from its text if all of it shows. -/
theorem reread_eq_self {url : Url} (hpath : url.segments ≠ [""])
    (hshown : ∀ v ∈ url.query, v ≠ blank) : url.reread = url := by
  rw [reread, if_neg hpath, List.filter_eq_self.2 fun v hv => decide_eq_true (hshown v hv)]

theorem reread_eq_self_iff {url : Url} :
    url.reread = url ↔ url.segments ≠ [""] ∧ ∀ p ∈ url.query, p ≠ blank := by
  constructor
  · intro h
    have hsegments : (if url.segments = [""] then [] else url.segments) = url.segments :=
      congrArg Url.segments h
    have hquery : url.query.filter (· ≠ blank) = url.query := congrArg Url.query h
    refine ⟨fun hempty => ?_, fun p hp => of_decide_eq_true (List.filter_eq_self.1 hquery p hp)⟩
    rw [if_pos hempty, hempty] at hsegments
    exact List.cons_ne_nil _ _ hsegments.symm
  · intro h
    exact reread_eq_self h.1 h.2

/-- A single empty segment is written as none is. -/
theorem pathText_reread (url : Url) : pathText url.reread.segments = pathText url.segments := by
  by_cases h : url.segments = [""]
  · rw [reread, if_pos h, pathText_eq_nil_iff.2 (.inl rfl), pathText_eq_nil_iff.2 (.inr h)]
  · rw [reread, if_neg h]

/-- What is read from the text of a URL has the same text, unless the text shows nothing of a
parameter. -/
theorem text_reread_eq_iff {url : Url} :
    url.reread.text = url.text ↔ ∀ p ∈ url.query, p ≠ blank := by
  have hchars : url.reread.text = url.text ↔ queryText url.reread.query = queryText url.query := by
    rw [text, text, String.ofList_inj, chars, chars, pathText_reread, List.cons.injEq,
      and_iff_right rfl, List.append_cancel_left_eq]
  rw [hchars]
  constructor
  · intro h p hp
    have hquery : url.query.filter (· ≠ blank) = url.query := queryText_injective h
    exact of_decide_eq_true (List.filter_eq_self.1 hquery p hp)
  · intro h
    rw [reread, List.filter_eq_self.2 fun p hp => decide_eq_true (h p hp)]

/-! ## URLs that were read -/

/-- Indicates a text whose query holds a parameter that is written as `=` alone. -/
def HasBareEquals (text : String) : Prop :=
  ∃ path query, text.toList = path ++ '?' :: query ∧ '?' ∉ path ∧
    ['='] ∈ Text.splitAll '&' query

theorem parseParameter_eq_blank_iff {cs : List Char} (hne : cs ≠ []) :
    parseParameter cs = blank ↔ cs = ['='] := by
  have hcs := Text.append_splitFirst '=' cs
  rw [parseParameter]
  split
  · rename_i name hsplit
    rw [hsplit] at hcs
    have hname : name = cs := by simpa using hcs
    have hsep := Text.sep_notMem_splitFirst '=' cs
    rw [hsplit] at hsep
    constructor
    · intro h
      have : decodePart name = "" := congrArg NamedValue.name h
      rw [decodePart_eq_iff, hname] at this
      exact absurd this hne
    · intro h
      rw [hname, h] at hsep
      exact absurd List.mem_cons_self hsep
  · rename_i name value hsplit
    rw [hsplit] at hcs
    rw [blank, NamedValue.mk.injEq, decodePart_eq_iff, decodePart_eq_iff, ← hcs]
    cases name with
    | nil => simp
    | cons c name => simp

theorem blank_mem_parseQuery_iff {cs : List Char} :
    blank ∈ parseQuery cs ↔ ['='] ∈ Text.splitAll '&' cs := by
  rw [parseQuery, List.mem_map]
  constructor
  · intro h
    obtain ⟨part, hpart, hblank⟩ := h
    rw [List.mem_filter, decide_eq_true_eq] at hpart
    rw [← (parseParameter_eq_blank_iff hpart.2).1 hblank]
    exact hpart.1
  · intro h
    refine ⟨['='], ?_, (parseParameter_eq_blank_iff (List.cons_ne_nil _ _)).2 rfl⟩
    exact List.mem_filter.2 ⟨h, by decide⟩

/-- A path that is not empty is not read as a single empty segment. -/
theorem parsePath_ne (cs : List Char) : parsePath cs ≠ [""] := by
  rw [parsePath]
  split
  · exact (List.cons_ne_nil _ _).symm
  · rename_i hne
    intro h
    rw [List.map_eq_singleton_iff] at h
    obtain ⟨part, hparts, hpart⟩ := h
    have hcs := Text.intercalate_splitAll '/' cs
    rw [hparts, decodePart_eq_iff.1 hpart] at hcs
    exact hne (by simpa using hcs.symm)

/-- A `/` in front of a URL is not part of the path. -/
theorem exists_segments_parse (text : String) : ∃ cs, (parse text).segments = parsePath cs := by
  rw [parse, parseChars.eq_def]
  split
  · exact ⟨_, rfl⟩
  · exact ⟨_, rfl⟩

theorem query_parse (text : String) :
    (parse text).query = (Text.splitFirst '?' text.toList).2.elim [] parseQuery := by
  rw [parse, parseChars.eq_def]
  split
  · rename_i cs htext
    rw [htext, Text.splitFirst, if_neg (by decide)]
    rfl
  · rfl

theorem blank_mem_query_parse_iff {text : String} :
    blank ∈ (parse text).query ↔ HasBareEquals text := by
  rw [query_parse]
  constructor
  · intro h
    have htext := Text.append_splitFirst '?' text.toList
    have hpath := Text.sep_notMem_splitFirst '?' text.toList
    cases hquery : (Text.splitFirst '?' text.toList).2 with
    | none =>
      rw [hquery] at h
      exact absurd h List.not_mem_nil
    | some query =>
      rw [hquery] at h htext
      exact ⟨_, query, htext.symm, hpath, blank_mem_parseQuery_iff.1 h⟩
  · intro h
    obtain ⟨path, query, htext, hpath, hbare⟩ := h
    rw [htext, Text.splitFirst_append_cons hpath]
    exact blank_mem_parseQuery_iff.2 hbare

/-- A URL is read back from its text exactly if its path is not a single empty segment and each of its
parameters has a name or a value. Of the URLs that were read from a text, these are all but those of
a text with a parameter that is written as `=` alone. -/
theorem parse_text_eq_self_iff :
    (∀ url : Url, parse url.text = url ↔
      url.segments ≠ [""] ∧ ∀ p ∈ url.query, p.name ≠ "" ∨ p.value ≠ "") ∧
    ∀ text : String, (parse text).segments ≠ [""] ∧
      (parse (parse text).text = parse text ↔ ¬ HasBareEquals text) := by
  have hblank (p : NamedValue) : p ≠ blank ↔ p.name ≠ "" ∨ p.value ≠ "" := by
    rw [blank, Ne, NamedValue.mk.injEq, Decidable.not_and_iff_not_or_not]
  constructor
  · intro url
    rw [parse_text, reread_eq_self_iff]
    simp only [hblank]
  · intro text
    have hpath : (parse text).segments ≠ [""] := by
      obtain ⟨cs, hcs⟩ := exists_segments_parse text
      rw [hcs]
      exact parsePath_ne cs
    refine ⟨hpath, ?_⟩
    rw [parse_text, reread_eq_self_iff, and_iff_right hpath, ← blank_mem_query_parse_iff]
    constructor
    · intro h hmem
      exact h blank hmem rfl
    · intro h p hp heq
      exact h (heq ▸ hp)

/-- A bare `=` is read as a parameter that the text of the URL does not show. -/
example : parse "/a?=&b" = { segments := ["a"], query := [blank, { name := "b" }] } ∧
    parse (parse "/a?=&b").text = { segments := ["a"], query := [{ name := "b" }] } := by
  decide +kernel

end StatefulPages.Url
