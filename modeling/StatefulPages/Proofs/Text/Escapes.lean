import StatefulPages.Text.Percent

/-!
# Text that was escaped is read back

* `Utf8.decodeLossy_encode`: the bytes of a text are read as the text;
* `Percent.decode_encode`: so is an escaped text, whatever characters are plain, as long as `%` is
  not one of them;
* `Percent.notMem_encode`: an escaped text holds only plain characters, `%` and digits;
* `Percent.decode_eq_nil_iff`: only the empty text is read as the empty text.
-/

namespace StatefulPages.Text

/-! ## UTF-8 -/

namespace Utf8

variable {n m code more : Nat} {lo hi : UInt8} {bs : List UInt8}

/-- What the first byte of two calls for. -/
theorem lead?_of_two : ∀ n < 32, 2 ≤ n →
    lead? (UInt8.ofNat (n + 0xC0)) = some (.within 0 0x80 0xBF n) := by
  decide

/-- What the first byte of three calls for. -/
theorem lead?_of_three : ∀ n < 16, lead? (UInt8.ofNat (n + 0xE0)) =
    some (.within 1 (if n = 0 then 0xA0 else 0x80) (if n = 13 then 0x9F else 0xBF) n) := by
  decide

/-- What the first byte of four calls for. -/
theorem lead?_of_four : ∀ n < 5, lead? (UInt8.ofNat (n + 0xF0)) =
    some (.within 2 (if n = 0 then 0x90 else 0x80) (if n = 4 then 0x8F else 0xBF) n) := by
  decide

theorem toNat_ofNat_of_lt (h : n < 256) : (UInt8.ofNat n).toNat = n := by
  rw [UInt8.toNat_ofNat', Nat.mod_eq_of_lt h]

theorem decodeFrom_lead {state : State} (hlo : 0x80 ≤ n) (hhi : n < 256)
    (h : lead? (UInt8.ofNat n) = some state) :
    decodeFrom .start (UInt8.ofNat n :: bs) = decodeFrom state bs := by
  have hle : ¬ UInt8.ofNat n < 0x80 := by
    rw [UInt8.lt_iff_toNat_lt, toNat_ofNat_of_lt hhi]
    exact Nat.not_lt.2 hlo
  rw [decodeFrom, step, first, if_neg hle, h]
  rfl

theorem toNat_tail (hm : m < 64) : (UInt8.ofNat (m + 0x80)).toNat = m + 0x80 :=
  toNat_ofNat_of_lt (by omega)

/-- A byte behind the first one lies within the bounds if its number does. -/
theorem tail_within (hm : m < 64) (hlo : lo.toNat ≤ m + 0x80) (hhi : m + 0x80 ≤ hi.toNat) :
    lo ≤ UInt8.ofNat (m + 0x80) ∧ UInt8.ofNat (m + 0x80) ≤ hi := by
  rw [UInt8.le_iff_toNat_le, UInt8.le_iff_toNat_le, toNat_tail hm]
  exact ⟨hlo, hhi⟩

theorem decodeFrom_more (hm : m < 64) (hlo : lo.toNat ≤ m + 0x80) (hhi : m + 0x80 ≤ hi.toNat) :
    decodeFrom (.within (more + 1) lo hi code) (UInt8.ofNat (m + 0x80) :: bs) =
      decodeFrom (.within more 0x80 0xBF (64 * code + m)) bs := by
  rw [decodeFrom, step, if_pos (tail_within hm hlo hhi), toNat_tail hm, Nat.add_sub_cancel]
  rfl

theorem decodeFrom_last (hm : m < 64) (hlo : lo.toNat ≤ m + 0x80) (hhi : m + 0x80 ≤ hi.toNat) :
    decodeFrom (.within 0 lo hi code) (UInt8.ofNat (m + 0x80) :: bs) =
      Char.ofNat (64 * code + m) :: decodeFrom .start bs := by
  rw [decodeFrom, step, if_pos (tail_within hm hlo hhi), toNat_tail hm, Nat.add_sub_cancel]
  rfl

/-! A character, by the number of its bytes. -/

theorem decodeFrom_one (h : n < 0x80) :
    decodeFrom .start (UInt8.ofNat n :: bs) = Char.ofNat n :: decodeFrom .start bs := by
  have hlt : UInt8.ofNat n < 0x80 := by
    rw [UInt8.lt_iff_toNat_lt, toNat_ofNat_of_lt (by omega)]
    exact h
  rw [decodeFrom, step, first, if_pos hlt, toNat_ofNat_of_lt (by omega)]
  rfl

theorem decodeFrom_two (hlo : 0x80 ≤ n) (hhi : n < 0x800) :
    decodeFrom .start (UInt8.ofNat (n / 64 % 32 + 0xC0) :: UInt8.ofNat (n % 64 + 0x80) :: bs) =
      Char.ofNat n :: decodeFrom .start bs := by
  have hcode : 64 * (n / 64 % 32) + n % 64 = n := by omega
  rw [decodeFrom_lead (by omega) (by omega) (lead?_of_two _ (by omega) (by omega)),
    decodeFrom_last (by omega) (Nat.le_add_left ..) (by show _ ≤ 0xBF; omega), hcode]

theorem decodeFrom_three (hlo : 0x800 ≤ n) (hhi : n < 0x10000) (hn : n < 0xD800 ∨ 0xDFFF < n) :
    decodeFrom .start (UInt8.ofNat (n / 4096 % 16 + 0xE0) :: UInt8.ofNat (n / 64 % 64 + 0x80) ::
        UInt8.ofNat (n % 64 + 0x80) :: bs) =
      Char.ofNat n :: decodeFrom .start bs := by
  have hcode : 64 * (64 * (n / 4096 % 16) + n / 64 % 64) + n % 64 = n := by omega
  have hfrom : (if n / 4096 % 16 = 0 then 0xA0 else 0x80 : UInt8).toNat ≤ n / 64 % 64 + 0x80 := by
    split
    · show 0xA0 ≤ _
      omega
    · exact Nat.le_add_left ..
  have hto : n / 64 % 64 + 0x80 ≤ (if n / 4096 % 16 = 13 then 0x9F else 0xBF : UInt8).toNat := by
    split
    · show _ ≤ 0x9F
      omega
    · show _ ≤ 0xBF
      omega
  rw [decodeFrom_lead (by omega) (by omega) (lead?_of_three _ (by omega)),
    decodeFrom_more (by omega) hfrom hto,
    decodeFrom_last (by omega) (Nat.le_add_left ..) (by show _ ≤ 0xBF; omega), hcode]

theorem decodeFrom_four (hlo : 0x10000 ≤ n) (hhi : n < 0x110000) :
    decodeFrom .start (UInt8.ofNat (n / 262144 % 8 + 0xF0) :: UInt8.ofNat (n / 4096 % 64 + 0x80) ::
        UInt8.ofNat (n / 64 % 64 + 0x80) :: UInt8.ofNat (n % 64 + 0x80) :: bs) =
      Char.ofNat n :: decodeFrom .start bs := by
  have hcode : 64 * (64 * (64 * (n / 262144 % 8) + n / 4096 % 64) + n / 64 % 64) + n % 64 = n := by
    omega
  have hfrom : (if n / 262144 % 8 = 0 then 0x90 else 0x80 : UInt8).toNat ≤
      n / 4096 % 64 + 0x80 := by
    split
    · show 0x90 ≤ _
      omega
    · exact Nat.le_add_left ..
  have hto : n / 4096 % 64 + 0x80 ≤
      (if n / 262144 % 8 = 4 then 0x8F else 0xBF : UInt8).toNat := by
    split
    · show _ ≤ 0x8F
      omega
    · show _ ≤ 0xBF
      omega
  rw [decodeFrom_lead (by omega) (by omega) (lead?_of_four _ (by omega)),
    decodeFrom_more (by omega) hfrom hto,
    decodeFrom_more (by omega) (Nat.le_add_left ..) (by show _ ≤ 0xBF; omega),
    decodeFrom_last (by omega) (Nat.le_add_left ..) (by show _ ≤ 0xBF; omega), hcode]

/-- A character is read from its bytes, and what follows them is left. -/
theorem decodeFrom_encodeChar (c : Char) (bs : List UInt8) :
    decodeFrom .start (encodeChar c ++ bs) = c :: decodeFrom .start bs := by
  have hval : c.val.toNat = c.toNat := rfl
  have hvalid : c.toNat < 0xD800 ∨ (0xDFFF < c.toNat ∧ c.toNat < 0x110000) := c.valid
  have hchar : Char.ofNat c.toNat = c := Char.ofNat_toNat c
  rw [encodeChar, String.utf8EncodeChar, hval]
  by_cases h₁ : c.toNat ≤ 0x7F
  · rw [if_pos h₁, List.singleton_append, decodeFrom_one (by omega), hchar]
  by_cases h₂ : c.toNat ≤ 0x7FF
  · rw [if_neg h₁, if_pos h₂, List.cons_append, List.singleton_append,
      decodeFrom_two (by omega) (by omega), hchar]
  by_cases h₃ : c.toNat ≤ 0xFFFF
  · rw [if_neg h₁, if_neg h₂, if_pos h₃, List.cons_append, List.cons_append, List.singleton_append,
      decodeFrom_three (by omega) (by omega) (by omega), hchar]
  · rw [if_neg h₁, if_neg h₂, if_neg h₃, List.cons_append, List.cons_append, List.cons_append,
      List.singleton_append, decodeFrom_four (by omega) (by omega), hchar]

/-- The bytes of a string are those of its characters. -/
theorem ofString_eq (s : String) : ofString s = encode s.toList := by
  rw [ofString, ← String.utf8Encode_toList, List.utf8Encode, List.toList_data_toByteArray]
  rfl

theorem decodeLossy_encode (cs : List Char) : decodeLossy (encode cs) = cs := by
  rw [decodeLossy, encode]
  induction cs with
  | nil => rfl
  | cons c cs ih => rw [List.flatMap_cons, decodeFrom_encodeChar, ih]

/-! Bytes that are there are not lost. -/

theorem lead?_ne_start (b : UInt8) : lead? b ≠ some .start := by
  rw [lead?]
  repeat' split
  all_goals simp

/-- A byte completes a character or leaves one begun. -/
theorem ne_start_of_step {state : State} {b : UInt8} (h : (step state b).1 = []) :
    (step state b).2 ≠ .start := by
  cases state with
  | start =>
    rw [step, first] at h ⊢
    split at h
    · cases h
    · rename_i hlarge
      rw [if_neg hlarge]
      cases hlead : lead? b with
      | none =>
        rw [hlead] at h
        cases h
      | some state =>
        intro hstart
        rw [show state = .start from hstart] at hlead
        exact lead?_ne_start b hlead
  | within more lo hi code =>
    simp only [step] at h ⊢
    split at h
    · rename_i hwithin
      rw [if_pos hwithin]
      cases more with
      | zero => cases h
      | succ more => exact State.noConfusion
    · cases h

/-- Only no bytes at all are read as no text. -/
theorem decodeFrom_eq_nil_iff {state : State} {bs : List UInt8} :
    decodeFrom state bs = [] ↔ state = .start ∧ bs = [] := by
  induction bs generalizing state with
  | nil => cases state <;> simp [decodeFrom]
  | cons b bs ih =>
    have hstep : decodeFrom state (b :: bs) =
        (step state b).1 ++ decodeFrom (step state b).2 bs := by
      cases state <;> rfl
    rw [hstep, List.append_eq_nil_iff, ih]
    constructor
    · intro h
      exact absurd h.2.1 (ne_start_of_step h.1)
    · intro h
      exact absurd h.2 (List.cons_ne_nil b bs)

theorem decodeLossy_eq_nil_iff {bs : List UInt8} : decodeLossy bs = [] ↔ bs = [] := by
  rw [decodeLossy, decodeFrom_eq_nil_iff]
  exact and_iff_right rfl

end Utf8

/-! ## Percent escapes -/

namespace Percent

variable {plain : Char → Bool} {c sep : Char} {cs : List Char}

theorem hexValue?_upperDigit : ∀ n < 16, hexValue? (upperDigit n) = some n := by
  decide

theorem byte?_upperDigit (b : UInt8) :
    byte? (upperDigit (b.toNat / 16)) (upperDigit (b.toNat % 16)) = some b := by
  have hlt := b.toNat_lt
  have hhigh := hexValue?_upperDigit (b.toNat / 16) (by omega)
  have hlow := hexValue?_upperDigit (b.toNat % 16) (by omega)
  simp only [byte?, hhigh, hlow]
  rw [Nat.div_add_mod, UInt8.ofNat_toNat]

theorem bytes_escapeByte (b : UInt8) (cs : List Char) :
    bytes (escapeByte b ++ cs) = b :: bytes cs := by
  show bytes ('%' :: upperDigit (b.toNat / 16) :: upperDigit (b.toNat % 16) :: cs) = _
  rw [bytes, byte?_upperDigit]

theorem bytes_escapeBytes (bs : List UInt8) (cs : List Char) :
    bytes (bs.flatMap escapeByte ++ cs) = bs ++ bytes cs := by
  induction bs with
  | nil => rfl
  | cons b bs ih =>
    rw [List.flatMap_cons, List.append_assoc, bytes_escapeByte, ih, List.cons_append]

theorem bytes_cons_of_ne (h : c ≠ '%') (cs : List Char) :
    bytes (c :: cs) = Utf8.encodeChar c ++ bytes cs := by
  rw [bytes]
  intro high low rest hc
  exact absurd hc h

theorem bytes_encodeChar (hplain : plain '%' = false) (c : Char) (cs : List Char) :
    bytes (encodeChar plain c ++ cs) = Utf8.encodeChar c ++ bytes cs := by
  rw [encodeChar]
  by_cases hc : plain c
  · have hne : c ≠ '%' := by
      intro heq
      rw [heq, hplain] at hc
      exact Bool.noConfusion hc
    rw [if_pos hc, List.singleton_append, bytes_cons_of_ne hne]
  · rw [if_neg hc, bytes_escapeBytes]

theorem bytes_encode (hplain : plain '%' = false) (cs : List Char) :
    bytes (encode plain cs) = Utf8.encode cs := by
  rw [encode, Utf8.encode]
  induction cs with
  | nil => rfl
  | cons c cs ih => rw [List.flatMap_cons, bytes_encodeChar hplain, ih, List.flatMap_cons]

/-- An escaped text is read as the text. -/
theorem decode_encode (hplain : plain '%' = false) (cs : List Char) :
    decode (encode plain cs) = cs := by
  rw [decode, bytes_encode hplain, Utf8.decodeLossy_encode]

theorem bytes_eq_nil_iff : bytes cs = [] ↔ cs = [] := by
  have hchar (c : Char) (bs : List UInt8) : Utf8.encodeChar c ++ bs ≠ [] :=
    List.append_ne_nil_of_left_ne_nil String.utf8EncodeChar_ne_nil bs
  fun_cases bytes cs with
  | case1 => simp
  | case2 high low cs b hb => simp
  | case3 high low cs hb => simp [hchar]
  | case4 c cs hescape => simp [hchar]

theorem decode_eq_nil_iff : decode cs = [] ↔ cs = [] := by
  rw [decode, Utf8.decodeLossy_eq_nil_iff, bytes_eq_nil_iff]

theorem encodeChar_ne_nil (plain : Char → Bool) (c : Char) : encodeChar plain c ≠ [] := by
  rw [encodeChar]
  by_cases hc : plain c
  · rw [if_pos hc]
    exact List.cons_ne_nil _ _
  · rw [if_neg hc, Utf8.encodeChar]
    intro h
    rw [List.flatMap_eq_nil_iff] at h
    obtain ⟨b, hb⟩ := List.exists_mem_of_ne_nil _ (String.utf8EncodeChar_ne_nil (c := c))
    exact List.cons_ne_nil _ _ (h b hb)

theorem encode_eq_nil_iff : encode plain cs = [] ↔ cs = [] := by
  cases cs with
  | nil => simp [encode]
  | cons c cs => simp [encode, encodeChar_ne_nil]

/-- A character that is neither plain nor part of an escape is not in an escaped text. -/
theorem notMem_encode (hplain : plain sep = false) (hmark : sep ≠ '%')
    (hdigit : ∀ n < 16, upperDigit n ≠ sep) (cs : List Char) : sep ∉ encode plain cs := by
  intro h
  rw [encode, List.mem_flatMap] at h
  obtain ⟨c, -, h⟩ := h
  rw [encodeChar] at h
  by_cases hc : plain c
  · rw [if_pos hc, List.mem_singleton] at h
    rw [← h, hplain] at hc
    exact Bool.noConfusion hc
  · rw [if_neg hc, List.mem_flatMap] at h
    obtain ⟨b, -, h⟩ := h
    have hlt := b.toNat_lt
    simp only [escapeByte, List.mem_cons, List.not_mem_nil, or_false] at h
    rcases h with h | h | h
    · exact hmark h
    · exact hdigit _ (by omega) h.symm
    · exact hdigit _ (by omega) h.symm

end Percent

end StatefulPages.Text
