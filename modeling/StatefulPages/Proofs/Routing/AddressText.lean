import StatefulPages.Proofs.Routing.AddressGrammar

/-!
# Addresses from their text

The text of an address is read as the address, as far as a text can say it: the name of the
interface has to be one, the path must not be empty, and the index of a behavior has to fit into 32
bits. Such a text is the form with no zeros in front of numbers and with `~` only where it has to be.

* `ComponentPath.decode?_encode`: the path of a component is read back from its form in a URL;
* `Address.parse?_text`: an address that a text can say is read back from its text;
* `Address.isSaid_of_parse?`: no text is read as any other address;
* `Address.parse?_text_eq_some_iff`: so these are the addresses that are read back.
-/

namespace StatefulPages

/-! ## Paths -/

namespace ComponentPath

namespace Part

/-- What a character of a path is written as. -/
def ofChar (c : Char) : Part :=
  if c = ':' then separator else if h : c = '-' ∨ c = '~' then escaped c else plain c (not_or.1 h)

theorem chars_ofChar (c : Char) : (ofChar c).chars = encodeChar c := by
  rw [ofChar, encodeChar]
  split
  · rfl
  · split <;> rfl

theorem char_ofChar (c : Char) : (ofChar c).char = c := by
  rw [ofChar]
  split
  · rename_i h
    exact h.symm
  · split <;> rfl

end Part

theorem flatMap_chars_ofChar (cs : List Char) :
    (cs.map Part.ofChar).flatMap Part.chars = encode cs := by
  rw [List.flatMap_map, encode]
  exact congrArg (cs.flatMap ·) (funext Part.chars_ofChar)

theorem map_char_ofChar (cs : List Char) : (cs.map Part.ofChar).map Part.char = cs := by
  rw [List.map_map, show Part.char ∘ Part.ofChar = id from funext Part.char_ofChar, List.map_id]

theorem decode?_encode (cs : List Char) : decode? (encode cs) = some cs := by
  rw [← flatMap_chars_ofChar, decode?_flatMap_chars, map_char_ofChar]

end ComponentPath

/-! ## Numbers -/

namespace Text.Numeral

/-- A number without zeros in front. -/
def ofNat (n : Nat) (h : n < wordCount) : Numeral where
  digits := decimal n
  ne_nil := decimal_ne_nil n
  isDigit _ := isDigit_of_mem_decimal
  lt_wordCount := by rwa [decimal, Nat.ofDigitChars_ten_toDigits]

theorem value_ofNat {n : Nat} (h : n < wordCount) : (ofNat n h).value = UInt32.ofNat n := by
  show UInt32.ofNat (Nat.ofDigitChars 10 (Nat.toDigits 10 n) 0) = _
  rw [Nat.ofDigitChars_ten_toDigits]

/-- A number of 32 bits without zeros in front. -/
def ofWord (n : UInt32) : Numeral :=
  ofNat n.toNat (show n.toNat < wordCount from n.toNat_lt)

theorem value_ofWord (n : UInt32) : (ofWord n).value = n := by
  rw [ofWord, value_ofNat, UInt32.ofNat_toNat]

theorem map_value_ofWord (n : Option UInt32) : (n.map ofWord).map (·.value) = n := by
  cases n with
  | none => rfl
  | some n => rw [Option.map_some, Option.map_some, value_ofWord]

end Text.Numeral

/-! ## Components -/

namespace ComponentAddress

/-- What the text of an address of a component says. -/
structure IsSaid (c : ComponentAddress) : Prop where
  interface : isInterfaceName c.interface.toList = true
  path : c.path ≠ ""
  /-- The index of a behavior fits into 32 bits. -/
  behavior : ∀ i ∈ c.behavior, i < Text.wordCount

theorem isSaid_address (f : Form) : f.address.IsSaid where
  interface := by simp [Form.address, f.interface.isInterfaceName_chars]
  path := by simp [Form.address, f.path_ne_nil]
  behavior i hi := by
    simp only [Form.address, Option.mem_def, Option.map_eq_some_iff] at hi
    obtain ⟨n, -, rfl⟩ := hi
    exact n.value.toNat_lt

/-- The index of a behavior as a number without zeros in front. -/
theorem exists_numeral {behavior : Option Nat} (h : ∀ i ∈ behavior, i < Text.wordCount) :
    ∃ n : Option Text.Numeral, n.elim [] ('.' :: ·.digits) =
        behavior.elim [] (fun i => '.' :: Text.decimal i) ∧
      n.map (·.value.toNat) = behavior := by
  cases behavior with
  | none => exact ⟨none, rfl, rfl⟩
  | some i =>
    refine ⟨some (.ofNat i (h i rfl)), rfl, ?_⟩
    rw [Option.map_some, Text.Numeral.value_ofNat, UInt32.toNat_ofNat_of_lt' (h i rfl)]

theorem exists_form {c : ComponentAddress} (h : c.IsSaid) :
    ∃ f : Form, f.chars = c.chars ∧ f.address = c := by
  obtain ⟨interface, hinterface⟩ := InterfaceName.isInterfaceName_iff_exists.1 h.interface
  obtain ⟨behavior, hbehavior, hindex⟩ := exists_numeral h.behavior
  have hpath : c.path.toList.map ComponentPath.Part.ofChar ≠ [] := by simpa using h.path
  refine ⟨{ renderCount := c.renderCount.map .ofWord, interface, behavior
            path := c.path.toList.map .ofChar, path_ne_nil := hpath }, ?_, ?_⟩
  · rw [Form.chars, Head.chars, ComponentPath.flatMap_chars_ofChar, hinterface, hbehavior, chars]
    cases c.renderCount <;> simp [Text.Numeral.ofWord, Text.Numeral.ofNat]
  · rw [Form.address, Text.Numeral.map_value_ofWord, hindex, hinterface,
      ComponentPath.map_char_ofChar, String.ofList_toList, String.ofList_toList]

end ComponentAddress

/-! ## Addresses -/

namespace Address

/-- What the text of an address says. -/
structure IsSaid (a : Address) : Prop where
  /-- There is a page or a component. -/
  something : a.page ≠ none ∨ a.component ≠ none
  component : ∀ c ∈ a.component, c.IsSaid

theorem isSaid_ofPage (id : PageId) : (ofPage id).IsSaid :=
  ⟨.inl (Option.some_ne_none id), fun _ hc => absurd hc (Option.not_mem_none _)⟩

theorem isSaid_address (f : Form) : f.address.IsSaid := by
  cases f with
  | page id => exact isSaid_ofPage id.value
  | component owner c =>
    refine ⟨.inr (Option.some_ne_none c.address), fun d hd => ?_⟩
    cases hd
    exact ComponentAddress.isSaid_address c

theorem exists_form {a : Address} (h : a.IsSaid) :
    ∃ f : Form, f.chars = a.chars ∧ f.address = a := by
  obtain ⟨page, component⟩ := a
  cases component with
  | none =>
    obtain ⟨id, rfl⟩ := Option.ne_none_iff_exists'.1 (h.something.resolve_right (· rfl))
    refine ⟨.page (.ofWord id), ?_, ?_⟩
    · simp [Form.chars, chars, Text.Numeral.ofWord, Text.Numeral.ofNat]
    · rw [Form.address, Text.Numeral.value_ofWord, ofPage]
  | some c =>
    obtain ⟨f, hchars, haddress⟩ := ComponentAddress.exists_form (h.component c rfl)
    refine ⟨.component (page.map .ofWord) f, ?_, ?_⟩
    · rw [Form.chars, hchars, chars]
      cases page <;> rfl
    · rw [Form.address, haddress, Text.Numeral.map_value_ofWord]

/-- An address is read back from its text if the text says all of it. -/
theorem parse?_text {a : Address} (h : a.IsSaid) : parse? a.text = some a := by
  obtain ⟨f, hchars, haddress⟩ := exists_form h
  rw [parse?, text, String.toList_ofList, ← hchars, f.parseChars?_chars, haddress]

/-- A URL that begins its query with the text of an address holds the address. -/
theorem ofUrl?_of_query {a : Address} (h : a.IsSaid) {url : Url} {rest : List NamedValue}
    (hquery : url.query = { name := a.text } :: rest) : ofUrl? url = some a := by
  rw [ofUrl?, hquery, List.head?_cons, Option.bind_some, ofParameter?, if_pos rfl, parse?_text h]

/-- The text of an address is none that cannot be read. -/
theorem text_ne {a : Address} (h : a.IsSaid) {text : String} (hread : parse? text = none) :
    a.text ≠ text := by
  rintro rfl
  rw [parse?_text h] at hread
  exact Option.some_ne_none a hread

/-- Every address that is read from a text is said by its own text. -/
theorem isSaid_of_parse? {text : String} {a : Address} (h : parse? text = some a) : a.IsSaid := by
  obtain ⟨f, -, rfl⟩ := Form.exists_of_parseChars? h
  exact isSaid_address f

/-- An address is read back from its text exactly if the text says all of it, and so is every
address that was read from a text. The path of a component is read back in any case. -/
theorem parse?_text_eq_some_iff :
    (∀ a : Address, parse? a.text = some a ↔ a.IsSaid) ∧
    (∀ (text : String) (a : Address), parse? text = some a → a.IsSaid ∧ parse? a.text = some a) ∧
    ∀ path : List Char, ComponentPath.decode? (ComponentPath.encode path) = some path := by
  refine ⟨fun a => ⟨isSaid_of_parse?, parse?_text⟩, fun text a h => ?_,
    ComponentPath.decode?_encode⟩
  exact ⟨isSaid_of_parse? h, parse?_text (isSaid_of_parse? h)⟩

/-- An address that was read from a text with zeros in front and with a character escaped that need
not be is read back from its own text. One with an empty path is not. -/
theorem parse?_text_eq_some_iff_of_link :
    parse? "007-02.ILink.1-a~-b-~c" =
      some { page := some 7
             component := some { renderCount := some 2, interface := "ILink", behavior := some 1
                                 path := "a-b:c" } } ∧
    parse? "7-2.ILink.1-a~-b-c" = parse? "007-02.ILink.1-a~-b-~c" ∧
    parse? (text { page := some 7, component := some { interface := "ILink", path := "" } }) ≠
      some { page := some 7, component := some { interface := "ILink", path := "" } } := by
  have hread : parse? "007-02.ILink.1-a~-b-~c" =
      some { page := some 7
             component := some { renderCount := some 2, interface := "ILink", behavior := some 1
                                 path := "a-b:c" } } := by decide +kernel
  refine ⟨hread, ?_, ?_⟩
  · rw [hread, ← (parse?_text_eq_some_iff.2.1 _ _ hread).2]
    exact congrArg parse? (by decide +kernel)
  · rw [Ne, parse?_text_eq_some_iff.1]
    intro hsaid
    exact (hsaid.component _ rfl).path rfl

end Address

end StatefulPages
