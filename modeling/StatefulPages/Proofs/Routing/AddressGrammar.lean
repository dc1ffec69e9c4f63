import StatefulPages.Address

/-!
# The grammar of addresses

An address is written as one of

    number        number "-" component        "-" component

and a component as

    [ number "." ] interface [ "." number ] "-" path

A number is one or more digits and fits into 32 bits. The name of an interface is an ASCII letter
and after it ASCII letters, digits or `_`. A path is not empty; in it `~` takes the character behind
it as it is, and each other `-` stands for a `:`.

* `Address.Form`: a text that is taken apart by this grammar;
* `Address.parse?_eq_some_iff_exists_form`: the texts of forms are read, and no others, and no text
  has two forms.
-/

namespace StatefulPages

/-! ## Numbers -/

namespace Text

/-- One or more digits, which stand for a number of 32 bits. There may be zeros in front. -/
@[ext]
structure Numeral where
  digits : List Char
  ne_nil : digits ≠ []
  isDigit : ∀ c ∈ digits, c.isDigit = true
  lt_wordCount : Nat.ofDigitChars 10 digits 0 < wordCount

namespace Numeral

/-- The number that the digits stand for. -/
def value (n : Numeral) : UInt32 :=
  UInt32.ofNat (Nat.ofDigitChars 10 n.digits 0)

theorem decimal?_digits (n : Numeral) :
    decimal? n.digits = some (Nat.ofDigitChars 10 n.digits 0) := by
  rw [decimal?, if_pos ⟨n.ne_nil, List.all_eq_true.2 n.isDigit⟩]

theorem decimal32?_digits (n : Numeral) : decimal32? n.digits = some n.value := by
  rw [decimal32?, decimal?_digits, Option.bind_some, word32?, if_pos n.lt_wordCount, value]

theorem exists_of_decimal32? {cs : List Char} {word : UInt32} (h : decimal32? cs = some word) :
    ∃ n : Numeral, n.digits = cs ∧ n.value = word := by
  rw [decimal32?, Option.bind_eq_some_iff] at h
  obtain ⟨k, hk, hword⟩ := h
  rw [decimal?] at hk
  split at hk
  · rename_i hdigits
    cases hk
    rw [word32?] at hword
    split at hword
    · rename_i hlt
      cases hword
      exact ⟨⟨cs, hdigits.1, List.all_eq_true.1 hdigits.2, hlt⟩, rfl, rfl⟩
    · cases hword
  · cases hk

theorem notMem_digits {c : Char} (h : c.isDigit = false) (n : Numeral) : c ∉ n.digits := by
  intro hc
  rw [n.isDigit c hc] at h
  exact Bool.noConfusion h

end Numeral

end Text

/-! ## Names of interfaces -/

/-- The name of an interface. -/
@[ext]
structure InterfaceName where
  first : Char
  rest : List Char
  isAlpha : first.isAlpha = true
  isWord : ∀ c ∈ rest, c.isAlphanum = true ∨ c = '_'

namespace InterfaceName

def chars (i : InterfaceName) : List Char :=
  i.first :: i.rest

theorem chars_injective : Function.Injective chars := by
  intro i j h
  exact InterfaceName.ext (List.cons.inj h).1 (List.cons.inj h).2

theorem isInterfaceName_iff_exists {cs : List Char} :
    isInterfaceName cs = true ↔ ∃ i : InterfaceName, i.chars = cs := by
  cases cs with
  | nil => simp [isInterfaceName, chars]
  | cons c cs =>
    rw [isInterfaceName, Bool.and_eq_true, List.all_eq_true]
    simp only [Bool.or_eq_true, beq_iff_eq]
    constructor
    · intro h
      exact ⟨⟨c, cs, h.1, h.2⟩, rfl⟩
    · intro h
      obtain ⟨i, hi⟩ := h
      obtain ⟨rfl, rfl⟩ := List.cons.inj hi
      exact ⟨i.isAlpha, i.isWord⟩

theorem isInterfaceName_chars (i : InterfaceName) : isInterfaceName i.chars = true :=
  isInterfaceName_iff_exists.2 ⟨i, rfl⟩

/-- A separator is in no name. -/
theorem notMem_chars {sep : Char} (hsep : sep ∈ ['-', '.']) (i : InterfaceName) :
    sep ∉ i.chars := by
  have hchar : sep.isAlpha = false ∧ sep.isAlphanum = false ∧ sep ≠ '_' := by
    simp only [List.mem_cons, List.not_mem_nil, or_false] at hsep
    rcases hsep with rfl | rfl <;> decide
  rw [chars, List.mem_cons, not_or]
  constructor
  · rintro rfl
    rw [i.isAlpha] at hchar
    exact Bool.noConfusion hchar.1
  · intro hmem
    rcases i.isWord sep hmem with hword | hword
    · rw [hword] at hchar
      exact Bool.noConfusion hchar.2.1
    · exact hchar.2.2 hword

theorem isDigit_of_isAlpha {c : Char} (h : c.isAlpha = true) : c.isDigit = false := by
  have hletter : (decide ('A'.val ≤ c.val ∧ c.val ≤ 'Z'.val) ||
      decide ('a'.val ≤ c.val) && decide (c.val ≤ 'z'.val)) = true := h
  simp only [Bool.or_eq_true, Bool.and_eq_true, decide_eq_true_eq,
    UInt32.le_iff_toNat_le] at hletter
  rw [Bool.eq_false_iff, Ne, Char.isDigit_iff_toNat]
  -- both sorts of letters come behind the digits
  have hA : 'A'.val.toNat = 65 := rfl
  have ha : 'a'.val.toNat = 97 := rfl
  have h9 : '9'.toNat = 57 := rfl
  have hc : c.toNat = c.val.toNat := rfl
  omega

/-- A name is no number. -/
theorem chars_ne_digits (i : InterfaceName) (n : Text.Numeral) : i.chars ≠ n.digits := by
  intro h
  have hdigit := n.isDigit i.first (h ▸ List.mem_cons_self)
  rw [isDigit_of_isAlpha i.isAlpha] at hdigit
  exact Bool.noConfusion hdigit

theorem decimal?_chars (i : InterfaceName) : Text.decimal? i.chars = none := by
  rw [Text.decimal?, if_neg]
  simp [chars, isDigit_of_isAlpha i.isAlpha]

end InterfaceName

/-! ## Paths -/

namespace ComponentPath

/-- What stands for a character of a path. -/
inductive Part where
  /-- A `-`, which stands for a `:`. -/
  | separator
  /-- A `~` with the character itself behind it. -/
  | escaped (c : Char)
  /-- The character itself. -/
  | plain (c : Char) (h : c ≠ '-' ∧ c ≠ '~')

namespace Part

def chars : Part → List Char
  | separator => ['-']
  | escaped c => ['~', c]
  | plain c _ => [c]

/-- The character of the path. -/
def char : Part → Char
  | separator => ':'
  | escaped c => c
  | plain c _ => c

theorem chars_append_injective {part part' : Part} {cs cs' : List Char}
    (h : part.chars ++ cs = part'.chars ++ cs') : part = part' ∧ cs = cs' := by
  cases part <;> cases part' <;> grind [chars]

theorem flatMap_chars_eq_nil_iff {parts : List Part} : parts.flatMap chars = [] ↔ parts = [] := by
  cases parts with
  | nil => simp
  | cons part parts => cases part <;> simp [chars]

/-- The parts of a text are read off from the left. -/
theorem flatMap_chars_injective :
    Function.Injective fun parts : List Part => parts.flatMap chars := by
  intro parts
  induction parts with
  | nil =>
    intro parts' h
    exact (flatMap_chars_eq_nil_iff.1 (show parts'.flatMap chars = [] from h.symm)).symm
  | cons part parts ih =>
    intro parts' h
    cases parts' with
    | nil => exact flatMap_chars_eq_nil_iff.1 h
    | cons part' parts' =>
      simp only [List.flatMap_cons] at h
      obtain ⟨hpart, hparts⟩ := chars_append_injective h
      rw [hpart, ih hparts]

end Part

theorem decode?_flatMap_chars (parts : List Part) :
    decode? (parts.flatMap Part.chars) = some (parts.map Part.char) := by
  induction parts with
  | nil => rfl
  | cons part parts ih =>
    rw [List.flatMap_cons, List.map_cons]
    cases part with
    | separator =>
      rw [Part.chars, List.singleton_append, decode?, ih]
      · rfl
      · exact fun h _ => absurd h (by decide)
      · exact fun _ _ h _ => absurd h (by decide)
    | escaped c =>
      rw [Part.chars, List.cons_append, List.singleton_append, decode?, ih]
      rfl
    | plain c h =>
      rw [Part.chars, List.singleton_append, decode?, ih, if_neg h.1]
      · rfl
      · exact fun hc _ => h.2 hc
      · exact fun _ _ hc _ => h.2 hc

theorem exists_parts_of_decode? {cs path : List Char} (h : decode? cs = some path) :
    ∃ parts : List Part, parts.flatMap Part.chars = cs ∧ parts.map Part.char = path := by
  induction cs using decode?.induct generalizing path with
  | case1 =>
    cases h
    exact ⟨[], rfl, rfl⟩
  | case2 => cases h
  | case3 c cs ih =>
    rw [decode?, Option.map_eq_some_iff] at h
    obtain ⟨rest, hrest, rfl⟩ := h
    obtain ⟨parts, rfl, rfl⟩ := ih hrest
    exact ⟨.escaped c :: parts, rfl, rfl⟩
  | case4 c cs hend hescape ih =>
    rw [decode?, Option.map_eq_some_iff] at h
    · obtain ⟨rest, hrest, rfl⟩ := h
      obtain ⟨parts, hparts, rfl⟩ := ih hrest
      by_cases hc : c = '-'
      · exact ⟨.separator :: parts, by simp [Part.chars, hparts, hc], by simp [Part.char, hc]⟩
      · have htilde : c ≠ '~' := by
          intro htilde
          cases cs with
          | nil => exact hend htilde rfl
          | cons d cs => exact hescape d cs htilde rfl
        exact ⟨.plain c ⟨hc, htilde⟩ :: parts, by simp [Part.chars, hparts],
          by simp [Part.char, hc]⟩
    · exact hend
    · exact hescape

end ComponentPath

/-! ## Components -/

namespace ComponentAddress

/-- What stands in front of the path. -/
@[ext]
structure Head where
  renderCount : Option Text.Numeral := none
  interface : InterfaceName
  behavior : Option Text.Numeral := none

namespace Head

def chars (head : Head) : List Char :=
  head.renderCount.elim [] (·.digits ++ ['.']) ++ head.interface.chars ++
    head.behavior.elim [] ('.' :: ·.digits)

theorem notMem_chars (head : Head) : '-' ∉ head.chars := by
  have hnumber : ∀ n : Text.Numeral, '-' ∉ n.digits := Text.Numeral.notMem_digits (by decide)
  have hinterface : '-' ∉ head.interface.chars := InterfaceName.notMem_chars (by simp) _
  rw [chars, List.mem_append, List.mem_append, not_or, not_or]
  refine ⟨⟨?_, hinterface⟩, ?_⟩
  · cases head.renderCount <;> simp [hnumber]
  · cases head.behavior <;> simp [hnumber]

/-- The `.` separate the numbers from the name. -/
theorem splitAll_chars (head : Head) :
    Text.splitAll '.' head.chars = head.renderCount.toList.map (·.digits) ++
      head.interface.chars :: head.behavior.toList.map (·.digits) := by
  have hnumber : ∀ n : Text.Numeral, '.' ∉ n.digits := Text.Numeral.notMem_digits (by decide)
  have hinterface : '.' ∉ head.interface.chars := InterfaceName.notMem_chars (by simp) _
  rw [chars]
  cases head.renderCount <;> cases head.behavior <;>
    simp [Text.splitAll_append_cons, Text.splitAll_of_notMem, hnumber, hinterface]

theorem parseHead?_chars (head : Head) :
    parseHead? head.chars = some (head.renderCount.map (·.value), head.interface.chars,
      head.behavior.map (·.value)) := by
  rw [parseHead?, splitAll_chars]
  cases head.renderCount with
  | none =>
    cases head.behavior with
    | none => rfl
    | some i => simp [InterfaceName.decimal?_chars, Text.Numeral.decimal32?_digits]
  | some n =>
    cases head.behavior with
    | none => simp [Text.Numeral.decimal?_digits, Text.Numeral.decimal32?_digits]
    | some i => simp [Text.Numeral.decimal32?_digits]

theorem exists_of_parseHead? {cs interface : List Char} {renderCount behavior : Option UInt32}
    (h : parseHead? cs = some (renderCount, interface, behavior))
    (hinterface : isInterfaceName interface = true) :
    ∃ head : Head, head.chars = cs ∧ head.renderCount.map (·.value) = renderCount ∧
      head.interface.chars = interface ∧ head.behavior.map (·.value) = behavior := by
  obtain ⟨i, rfl⟩ := InterfaceName.isInterfaceName_iff_exists.1 hinterface
  have hjoin := Text.intercalate_splitAll '.' cs
  rw [parseHead?] at h
  split at h
  · rename_i name hsplit
    cases h
    rw [hsplit] at hjoin
    exact ⟨{ interface := i }, by simpa [chars] using hjoin, rfl, rfl, rfl⟩
  · rename_i first second hsplit
    rw [hsplit] at hjoin
    split at h
    · rw [Option.map_eq_some_iff] at h
      obtain ⟨word, hword, h⟩ := h
      cases h
      obtain ⟨n, rfl, rfl⟩ := Text.Numeral.exists_of_decimal32? hword
      exact ⟨{ renderCount := some n, interface := i }, by simpa [chars] using hjoin, rfl, rfl, rfl⟩
    · rw [Option.map_eq_some_iff] at h
      obtain ⟨word, hword, h⟩ := h
      cases h
      obtain ⟨n, rfl, rfl⟩ := Text.Numeral.exists_of_decimal32? hword
      exact ⟨{ interface := i, behavior := some n }, by simpa [chars] using hjoin, rfl, rfl, rfl⟩
  · rename_i first name second hsplit
    rw [hsplit] at hjoin
    rw [Option.bind_eq_some_iff] at h
    obtain ⟨count, hcount, h⟩ := h
    rw [Option.map_eq_some_iff] at h
    obtain ⟨word, hword, h⟩ := h
    cases h
    obtain ⟨n, rfl, rfl⟩ := Text.Numeral.exists_of_decimal32? hcount
    obtain ⟨k, rfl, rfl⟩ := Text.Numeral.exists_of_decimal32? hword
    exact ⟨{ renderCount := some n, interface := i, behavior := some k },
      by simpa [chars] using hjoin, rfl, rfl, rfl⟩
  · cases h

theorem chars_injective : Function.Injective chars := by
  intro head head' h
  have hparts := congrArg (Text.splitAll '.') h
  rw [splitAll_chars, splitAll_chars] at hparts
  obtain ⟨count, interface, behavior⟩ := head
  obtain ⟨count', interface', behavior'⟩ := head'
  -- a render count alone gives as many parts as a behavior alone, but no name is a number
  have hname : ∀ (i : InterfaceName) (n : Text.Numeral), i.chars ≠ n.digits :=
    InterfaceName.chars_ne_digits
  cases count <;> cases behavior <;> cases count' <;> cases behavior' <;>
    simp_all [InterfaceName.chars_injective.eq_iff, Text.Numeral.ext_iff]

end Head

/-- A text that addresses a component. -/
@[ext]
structure Form extends Head where
  path : List ComponentPath.Part
  path_ne_nil : path ≠ []

namespace Form

def chars (f : Form) : List Char :=
  f.toHead.chars ++ '-' :: f.path.flatMap ComponentPath.Part.chars

/-- What the text says. -/
def address (f : Form) : ComponentAddress :=
  { renderCount := f.renderCount.map (·.value), interface := String.ofList f.interface.chars
    path := String.ofList (f.path.map ComponentPath.Part.char)
    behavior := f.behavior.map (·.value.toNat) }

theorem parse?_chars (f : Form) : parse? f.chars = some f.address := by
  have hpath : f.path.flatMap ComponentPath.Part.chars ≠ [] := fun h =>
    f.path_ne_nil (ComponentPath.Part.flatMap_chars_eq_nil_iff.1 h)
  rw [chars, parse?, Text.splitFirst_append_cons f.toHead.notMem_chars]
  simp only [if_neg hpath, Head.parseHead?_chars, ComponentPath.decode?_flatMap_chars,
    InterfaceName.isInterfaceName_chars, if_true, Option.map_map]
  rfl

theorem exists_of_parse? {cs : List Char} {c : ComponentAddress} (h : parse? cs = some c) :
    ∃ f : Form, f.chars = cs ∧ f.address = c := by
  have hcs := Text.append_splitFirst '-' cs
  rw [parse?] at h
  split at h
  · cases h
  · rename_i head path hsplit
    rw [hsplit] at hcs
    split at h
    · cases h
    · rename_i hpath
      split at h
      · rename_i renderCount interface behavior decoded hhead hdecode
        split at h
        · rename_i hinterface
          cases h
          obtain ⟨head, rfl, rfl, rfl, rfl⟩ := Head.exists_of_parseHead? hhead hinterface
          obtain ⟨parts, rfl, rfl⟩ := ComponentPath.exists_parts_of_decode? hdecode
          have hparts : parts ≠ [] := fun h =>
            hpath (ComponentPath.Part.flatMap_chars_eq_nil_iff.2 h)
          refine ⟨{ head with path := parts, path_ne_nil := hparts }, hcs, ?_⟩
          simp only [address, Option.map_map]
          rfl
        · cases h
      · cases h

theorem chars_injective : Function.Injective chars := by
  intro f g h
  have hsplit := congrArg (Text.splitFirst '-') h
  rw [chars, chars, Text.splitFirst_append_cons f.toHead.notMem_chars,
    Text.splitFirst_append_cons g.toHead.notMem_chars, Prod.mk.injEq, Option.some.injEq] at hsplit
  have hhead : f.toHead = g.toHead := Head.chars_injective hsplit.1
  have hpath : f.path = g.path := ComponentPath.Part.flatMap_chars_injective hsplit.2
  cases f
  cases g
  simp_all

end Form

end ComponentAddress

/-! ## Addresses -/

namespace Address

/-- A text that is an address. -/
inductive Form where
  | page (id : Text.Numeral)
  | component (owner : Option Text.Numeral) (c : ComponentAddress.Form)

namespace Form

def chars : Form → List Char
  | page id => id.digits
  | component owner c => owner.elim [] (·.digits) ++ '-' :: c.chars

/-- What the text says. -/
def address : Form → Address
  | page id => ofPage id.value
  | component owner c => { page := owner.map (·.value), component := some c.address }

theorem notMem_owner (owner : Option Text.Numeral) : '-' ∉ owner.elim [] (·.digits) := by
  cases owner with
  | none => exact List.not_mem_nil
  | some id => exact Text.Numeral.notMem_digits (by decide) id

theorem parseChars?_chars (f : Form) : parseChars? f.chars = some f.address := by
  cases f with
  | page id =>
    rw [chars, parseChars?, Text.splitFirst_of_notMem (Text.Numeral.notMem_digits (by decide) id)]
    simp only [if_neg id.ne_nil, id.decimal32?_digits]
    rfl
  | component owner c =>
    have howner : parsePage? (owner.elim [] (·.digits)) = some (owner.map (·.value)) := by
      cases owner with
      | none => rfl
      | some id => simp [parsePage?, id.ne_nil, id.decimal32?_digits]
    rw [chars, parseChars?, Text.splitFirst_append_cons (notMem_owner owner)]
    simp only [howner, Option.bind_some, c.parse?_chars]
    rfl

theorem exists_of_parseChars? {cs : List Char} {a : Address} (h : parseChars? cs = some a) :
    ∃ f : Form, f.chars = cs ∧ f.address = a := by
  have hcs := Text.append_splitFirst '-' cs
  rw [parseChars?] at h
  split at h
  · rename_i page hsplit
    rw [hsplit] at hcs
    split at h
    · cases h
    · rw [Option.map_eq_some_iff] at h
      obtain ⟨word, hword, rfl⟩ := h
      obtain ⟨id, rfl, rfl⟩ := Text.Numeral.exists_of_decimal32? hword
      exact ⟨.page id, by simpa [chars] using hcs, rfl⟩
  · rename_i page component hsplit
    rw [hsplit] at hcs
    rw [Option.bind_eq_some_iff] at h
    obtain ⟨id?, hpage, h⟩ := h
    rw [Option.map_eq_some_iff] at h
    obtain ⟨c, hc, rfl⟩ := h
    obtain ⟨f, rfl, rfl⟩ := ComponentAddress.Form.exists_of_parse? hc
    rw [parsePage?] at hpage
    split at hpage
    · rename_i hnil
      cases hpage
      exact ⟨.component none f, by simpa [chars, hnil] using hcs, rfl⟩
    · rw [Option.map_eq_some_iff] at hpage
      obtain ⟨word, hword, rfl⟩ := hpage
      obtain ⟨id, rfl, rfl⟩ := Text.Numeral.exists_of_decimal32? hword
      exact ⟨.component (some id) f, by simpa [chars] using hcs, rfl⟩

/-- Only the text of a component holds a `-`. -/
theorem chars_page_ne (id : Text.Numeral) (owner : Option Text.Numeral)
    (c : ComponentAddress.Form) :
    (page id).chars ≠ (component owner c).chars := by
  intro h
  have hmem : '-' ∈ (component owner c).chars :=
    List.mem_append_right _ List.mem_cons_self
  rw [← h] at hmem
  exact Text.Numeral.notMem_digits (by decide) id hmem

theorem chars_injective : Function.Injective chars := by
  intro f g h
  cases f with
  | page id =>
    cases g with
    | page id' => exact congrArg page (Text.Numeral.ext h)
    | component owner c => exact absurd h (chars_page_ne id owner c)
  | component owner c =>
    cases g with
    | page id => exact absurd h.symm (chars_page_ne id owner c)
    | component owner' c' =>
      have hsplit := congrArg (Text.splitFirst '-') h
      rw [chars, chars, Text.splitFirst_append_cons (notMem_owner owner),
        Text.splitFirst_append_cons (notMem_owner owner'), Prod.mk.injEq,
        Option.some.injEq] at hsplit
      have howner : owner = owner' := by
        cases owner <;> cases owner' <;> simp_all [Text.Numeral.ext_iff, Text.Numeral.ne_nil]
      rw [howner, ComponentAddress.Form.chars_injective hsplit.2]

end Form

/-- A text is read exactly if it has a form, as what the form says, and no text has two forms. -/
theorem parse?_eq_some_iff_exists_form :
    (∀ (text : String) (a : Address),
      parse? text = some a ↔ ∃ f : Form, f.chars = text.toList ∧ f.address = a) ∧
    Function.Injective Form.chars := by
  refine ⟨fun text a => ?_, Form.chars_injective⟩
  constructor
  · intro h
    exact Form.exists_of_parseChars? h
  · intro h
    obtain ⟨f, htext, rfl⟩ := h
    rw [parse?, ← htext, Form.parseChars?_chars]

/-- There is no form with two numbers in place of a name, nor one that escapes nothing. -/
example : parse? "5-1.2-form" = none ∧ parse? "5-ILink-form~" = none := by decide +kernel

end Address

end StatefulPages
