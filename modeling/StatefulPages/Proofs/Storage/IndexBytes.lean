import Mathlib.Algebra.GroupWithZero.Nat
import StatefulPages.Proofs.Storage.IndexCodec

/-!
# Which bytes are an index

* `StoreIndex.parse_toBytes_iff`: an index is written, and read back, if and only if its counts fit
  into their fields;
* `StoreIndex.parse_iff_clearReserved`: bytes are read as an index if and only if they are what is
  written for it, the reserved bytes of its sessions excepted.

`StoreIndex.Holds` says what bytes of sessions look like, and each reader takes such bytes and no
others (`readRecords_eq_ok_iff`, `readSession_eq_ok_iff`, `readSessions_eq_ok_iff`).
-/

namespace StatefulPages

theorem LittleEndian.ofBytes_lt (bs : List UInt8) : ofBytes bs < valueCount bs.length := by
  induction bs with
  | nil => exact Nat.one_pos
  | cons b bs ih =>
    have hb := b.toNat_lt
    rw [ofBytes, List.length_cons, valueCount]
    omega

theorem Text.Utf8.ofString_of_toString? {bytes : List UInt8} {s : String}
    (h : toString? bytes = some s) : ofString s = bytes := by
  rw [toString?, String.fromUTF8?] at h
  split at h
  · cases h
    rfl
  · cases h

namespace StoreIndex

variable {bytes rest held : List UInt8} {number n width start : Nat} {s : SessionRecord}
  {ss : List SessionRecord} {index : StoreIndex}

theorem bind_eq_ok_iff {α β : Type} {x : Except IndexError α} {f : α → Except IndexError β}
    {b : β} : (x >>= f) = .ok b ↔ ∃ a, x = .ok a ∧ f a = .ok b := by
  cases x with
  | error e => simp [bind, Except.bind]
  | ok a => simp

theorem take_eq_ok_iff {head : List UInt8} :
    take n bytes = .ok (head, rest) ↔ head.length = n ∧ bytes = head ++ rest := by
  constructor
  · intro h
    rw [take] at h
    split at h
    · rename_i hlength
      cases h
      exact ⟨hlength, (List.take_append_drop n bytes).symm⟩
    · cases h
  · rintro ⟨hlength, rfl⟩
    exact take_append hlength

/-! ## Fields -/

/-- The bytes from a field on are those of the number in it, and those behind it. -/
theorem drop_eq_field_append (h : start + width ≤ bytes.length) :
    bytes.drop start =
      LittleEndian.toBytes width (fieldAt bytes start width) ++ bytes.drop (start + width) := by
  have hlength : ((bytes.drop start).take width).length = width := by
    rw [List.length_take, List.length_drop]
    omega
  have hfield := LittleEndian.toBytes_ofBytes ((bytes.drop start).take width)
  rw [hlength] at hfield
  rw [fieldAt, hfield, ← List.drop_drop, List.take_append_drop]

theorem fieldAt_lt (h : start + width ≤ bytes.length) :
    fieldAt bytes start width < LittleEndian.valueCount width := by
  have hlt := LittleEndian.ofBytes_lt ((bytes.drop start).take width)
  have hlength : ((bytes.drop start).take width).length = width := by
    rw [List.length_take, List.length_drop]
    omega
  rwa [hlength] at hlt

/-- A field of 4 bytes holds a word. -/
theorem toNat_fieldAt_four (h : start + 4 ≤ bytes.length) :
    (UInt32.ofNat (fieldAt bytes start 4)).toNat = fieldAt bytes start 4 :=
  UInt32.toNat_ofNat_of_lt' (fieldAt_lt h)

/-- A field of 8 bytes holds a double word. -/
theorem toNat_fieldAt_eight (h : start + 8 ≤ bytes.length) :
    (UInt64.ofNat (fieldAt bytes start 8)).toNat = fieldAt bytes start 8 :=
  UInt64.toNat_ofNat_of_lt' (fieldAt_lt h)

/-! ## Records -/

theorem windowBytes_windowOfBytes (h : bytes.length = 16) :
    windowBytes (windowOfBytes bytes) = bytes := by
  rw [windowBytes, windowOfBytes]
  dsimp only
  rw [toNat_fieldAt_four (by omega), toNat_fieldAt_four (by omega), toNat_fieldAt_eight (by omega)]
  calc word32 (fieldAt bytes 0 4) ++ word32 (fieldAt bytes 4 4) ++ word64 (fieldAt bytes 8 8)
    _ = word32 (fieldAt bytes 0 4) ++ (word32 (fieldAt bytes 4 4) ++
          (word64 (fieldAt bytes 8 8) ++ bytes.drop 16)) := by
        rw [List.drop_of_length_le (Nat.le_of_eq h), List.append_nil, List.append_assoc]
    _ = bytes.drop 0 := by
        simp only [word32, word64]
        rw [← drop_eq_field_append (by omega), ← drop_eq_field_append (by omega),
          ← drop_eq_field_append (by omega)]
    _ = bytes := List.drop_zero

theorem freeBytes_freeOfBytes (h : bytes.length = 16) : freeBytes (freeOfBytes bytes) = bytes := by
  rw [freeBytes, freeOfBytes]
  dsimp only
  rw [toNat_fieldAt_eight (by omega), toNat_fieldAt_eight (by omega)]
  calc word64 (fieldAt bytes 0 8) ++ word64 (fieldAt bytes 8 8)
    _ = word64 (fieldAt bytes 0 8) ++ (word64 (fieldAt bytes 8 8) ++ bytes.drop 16) := by
        rw [List.drop_of_length_le (Nat.le_of_eq h), List.append_nil]
    _ = bytes.drop 0 := by
        simp only [word64]
        rw [← drop_eq_field_append (by omega), ← drop_eq_field_append (by omega)]
    _ = bytes := List.drop_zero

/-- Records are read from their bytes only. -/
theorem readRecords_eq_ok_iff {α : Type} {read : List UInt8 → α} {write : α → List UInt8}
    (hlength : ∀ x, (write x).length = 16) (hread : ∀ x, read (write x) = x)
    (hwrite : ∀ {bytes : List UInt8}, bytes.length = 16 → write (read bytes) = bytes)
    {xs : List α} : readRecords read n bytes = .ok (xs, rest) ↔
      xs.length = n ∧ bytes = xs.flatMap write ++ rest := by
  constructor
  · intro h
    induction n generalizing bytes xs with
    | zero =>
      cases h
      exact ⟨rfl, rfl⟩
    | succ n ih =>
      rw [readRecords] at h
      obtain ⟨⟨head, behind⟩, htake, h⟩ := bind_eq_ok_iff.1 h
      obtain ⟨⟨tail, left⟩, hrecords, h⟩ := bind_eq_ok_iff.1 h
      obtain ⟨hhead, hbytes⟩ := take_eq_ok_iff.1 htake
      cases h
      obtain ⟨htail, hbehind⟩ := ih hrecords
      refine ⟨congrArg (· + 1) htail, ?_⟩
      rw [List.flatMap_cons, hwrite hhead, List.append_assoc, ← hbehind, hbytes]
  · rintro ⟨rfl, rfl⟩
    exact readRecords_append hlength hread xs

/-! ## Sessions -/

/-- The header of a session is made of its fields and the reserved word. -/
theorem exists_eq_headerWith {header : List UInt8} (h : header.length = 24)
    (hid : fieldAt header 0 4 = (Text.Utf8.ofString s.id).length)
    (hwindows : fieldAt header 4 4 = s.windows.length)
    (hfree : fieldAt header 8 4 = s.free.length)
    (hend : fieldAt header 16 8 = s.fileEnd.toNat) :
    ∃ word, word.length = 4 ∧ header = headerWith word s := by
  refine ⟨(header.drop 12).take 4, by simp [h], ?_⟩
  rw [headerWith, ← hid, ← hwindows, ← hfree, ← hend]
  calc header
    _ = header.drop 0 := rfl
    _ = word32 (fieldAt header 0 4) ++ (word32 (fieldAt header 4 4) ++
          (word32 (fieldAt header 8 4) ++ header.drop 12)) := by
        simp only [word32]
        rw [← drop_eq_field_append (by omega), ← drop_eq_field_append (by omega),
          ← drop_eq_field_append (by omega)]
    _ = word32 (fieldAt header 0 4) ++ (word32 (fieldAt header 4 4) ++
          (word32 (fieldAt header 8 4) ++ ((header.drop 12).take 4 ++
          (word64 (fieldAt header 16 8) ++ header.drop 24)))) := by
        rw [word64, ← drop_eq_field_append (by omega), ← List.drop_drop (i := 4) (j := 12),
          List.take_append_drop]
    _ = _ := by
        rw [List.drop_of_length_le (Nat.le_of_eq h), List.append_nil]
        simp only [List.append_assoc]

/-- A session is read from its bytes only, whatever its reserved word is. -/
theorem readSession_eq_ok_iff : readSession number bytes = .ok (s, rest) ↔
    fits s ∧ ∃ word, word.length = 4 ∧ bytes = sessionBytesWith word s ++ rest := by
  constructor
  · intro h
    rw [readSession] at h
    obtain ⟨⟨header, bytes₁⟩, hheader, h⟩ := bind_eq_ok_iff.1 h
    obtain ⟨⟨idBytes, bytes₂⟩, hid, h⟩ := bind_eq_ok_iff.1 h
    dsimp only at hid h
    split at h
    · cases h
    · rename_i id hutf8
      obtain ⟨⟨windows, bytes₃⟩, hwindows, h⟩ := bind_eq_ok_iff.1 h
      obtain ⟨⟨free, bytes₄⟩, hfree, h⟩ := bind_eq_ok_iff.1 h
      cases h
      dsimp only at hfree ⊢
      obtain ⟨hlength, hbytes⟩ := take_eq_ok_iff.1 hheader
      obtain ⟨hidLength, hbytes₁⟩ := take_eq_ok_iff.1 hid
      obtain ⟨hwindowsLength, hbytes₂⟩ := (readRecords_eq_ok_iff length_windowBytes
        windowOfBytes_windowBytes windowBytes_windowOfBytes).1 hwindows
      obtain ⟨hfreeLength, hbytes₃⟩ := (readRecords_eq_ok_iff length_freeBytes
        freeOfBytes_freeBytes freeBytes_freeOfBytes).1 hfree
      have hofString := Text.Utf8.ofString_of_toString? hutf8
      rw [← hofString] at hidLength
      constructor
      · simp only [fits, hidLength, hwindowsLength, hfreeLength, Bool.and_eq_true,
          decide_eq_true_eq]
        exact ⟨⟨fieldAt_lt (by omega), fieldAt_lt (by omega)⟩, fieldAt_lt (by omega)⟩
      · obtain ⟨word, hword, heq⟩ := exists_eq_headerWith (s := ⟨id, windows, free,
          UInt64.ofNat (fieldAt header 16 8)⟩) hlength hidLength.symm hwindowsLength.symm
          hfreeLength.symm (toNat_fieldAt_eight (by omega)).symm
        refine ⟨word, hword, ?_⟩
        rw [hbytes, hbytes₁, hbytes₂, hbytes₃, sessionBytesWith, ← heq]
        dsimp only
        rw [hofString]
        simp only [List.append_assoc]
  · rintro ⟨hfits, word, hword, rfl⟩
    exact readSession_append hfits hword number

/-- Sessions are read from their bytes only. -/
theorem readSessions_eq_ok_iff : readSessions n number bytes = .ok (ss, rest) ↔
    ss.length = n ∧ ∃ held, Holds ss held ∧ bytes = held ++ rest := by
  constructor
  · intro h
    induction n generalizing number bytes ss with
    | zero =>
      cases h
      exact ⟨rfl, [], .nil, rfl⟩
    | succ n ih =>
      rw [readSessions] at h
      obtain ⟨⟨s, behind⟩, hsession, h⟩ := bind_eq_ok_iff.1 h
      obtain ⟨⟨tail, left⟩, hsessions, h⟩ := bind_eq_ok_iff.1 h
      obtain ⟨hfits, word, hword, hbytes⟩ := readSession_eq_ok_iff.1 hsession
      cases h
      obtain ⟨hlength, held, hheld, hbehind⟩ := ih hsessions
      refine ⟨congrArg (· + 1) hlength, _, .cons hfits hword hheld, ?_⟩
      rw [hbytes, List.append_assoc, ← hbehind]
  · rintro ⟨rfl, held, hheld, rfl⟩
    exact readSessions_append hheld number

/-! ## Indexes -/

/-- An index is read from a header with the number of its sessions, and their bytes. -/
theorem parse_eq_ok_iff : parse bytes = .ok index ↔
    index.sessions.length < Text.wordCount ∧ ∃ held, Holds index.sessions held ∧
      bytes = indexHeader index.sessions.length ++ held := by
  constructor
  · intro h
    rw [parse] at h
    obtain ⟨⟨header, behind⟩, hheader, h⟩ := bind_eq_ok_iff.1 h
    dsimp only at h
    split at h
    · cases h
    · rename_i hmagic
      split at h
      · cases h
      · rename_i hversion
        obtain ⟨⟨ss, left⟩, hsessions, h⟩ := bind_eq_ok_iff.1 h
        dsimp only at h
        split at h
        · rename_i hleft
          cases h
          obtain ⟨hlength, hbytes⟩ := take_eq_ok_iff.1 hheader
          obtain ⟨hcount, held, hheld, hbehind⟩ := readSessions_eq_ok_iff.1 hsessions
          refine ⟨hcount ▸ fieldAt_lt (by omega), held, hheld, ?_⟩
          rw [hbytes, hbehind, hleft, List.append_nil]
          congr 1
          rw [indexHeader, hcount, ← Decidable.not_not.1 hmagic, ← Decidable.not_not.1 hversion]
          calc header
            _ = header.take 8 ++ header.drop 8 := (List.take_append_drop ..).symm
            _ = header.take 8 ++ (word32 (fieldAt header 8 4) ++
                  (word32 (fieldAt header 12 4) ++ header.drop 16)) := by
                simp only [word32]
                rw [← drop_eq_field_append (by omega), ← drop_eq_field_append (by omega)]
            _ = _ := by
                rw [List.drop_of_length_le (Nat.le_of_eq hlength), List.append_nil,
                  List.append_assoc]
        · cases h
  · rintro ⟨hcount, held, hheld, rfl⟩
    rw [← List.append_nil held, parse_append hcount hheld, if_pos rfl]

/-! ## What is written -/

/-- Indicates that the counts of a session fit into their fields. -/
def SessionFits (s : SessionRecord) : Prop :=
  s.id.utf8ByteSize < 2 ^ 32 ∧ s.windows.length < 2 ^ 32 ∧ s.free.length < 2 ^ 32

/-- Indicates that all counts of an index fit into their fields. -/
def CountsFit (index : StoreIndex) : Prop :=
  index.sessions.length < 2 ^ 32 ∧ ∀ s ∈ index.sessions, SessionFits s

/-- How many bytes an index has for a session. -/
def sessionSize (s : SessionRecord) : Nat :=
  24 + s.id.utf8ByteSize + 16 * s.windows.length + 16 * s.free.length

theorem fits_iff : fits s ↔ SessionFits s := by
  simp only [fits, SessionFits, Bool.and_eq_true, decide_eq_true_eq, and_assoc]
  rfl

theorem length_sessionBytesWith {word : List UInt8} (hword : word.length = 4) (s : SessionRecord) :
    (sessionBytesWith word s).length = sessionSize s := by
  have hrecords : ∀ {α : Type} {write : α → List UInt8}, (∀ x, (write x).length = 16) →
      ∀ xs : List α, (xs.flatMap write).length = 16 * xs.length := by
    intro α write hwrite xs
    simp [List.length_flatMap, hwrite, List.map_const', Nat.mul_comm]
  have hid : (Text.Utf8.ofString s.id).length = s.id.utf8ByteSize := rfl
  rw [sessionBytesWith, sessionSize, List.length_append, List.length_append, List.length_append,
    length_headerWith hword, hid, hrecords length_windowBytes, hrecords length_freeBytes]

theorem Holds.length_eq (h : Holds ss held) : held.length = (ss.map sessionSize).sum := by
  induction h with
  | nil => rfl
  | cons hfits hword htail ih =>
    rw [List.length_append, length_sessionBytesWith hword, ih, List.map_cons, List.sum_cons]

theorem Holds.fits (h : Holds ss held) : ∀ s ∈ ss, StoreIndex.fits s := by
  induction h with
  | nil => simp
  | cons hfits hword htail ih => exact List.forall_mem_cons.2 ⟨hfits, ih⟩

theorem countsFit_of_toBytes (h : index.toBytes = .ok bytes) : index.CountsFit := by
  obtain ⟨hcount, tail, htail, -⟩ := toBytes_eq_ok_iff.1 h
  exact ⟨hcount, fun s hs => fits_iff.1 ((holds_of_sessionsBytes htail).fits s hs)⟩

/-- An index is written if its counts fit into their fields, and then it is read back. Otherwise
there is an error. -/
theorem parse_toBytes_iff (index : StoreIndex) :
    (index.CountsFit ↔ ∃ bytes, index.toBytes = .ok bytes ∧ parse bytes = .ok index ∧
        bytes.length = 16 + (index.sessions.map sessionSize).sum) ∧
      (¬ index.CountsFit ↔ ∃ e, index.toBytes = .error e) := by
  have hwritten : index.CountsFit → ∃ bytes, index.toBytes = .ok bytes := fun h =>
    toBytes_of_fits h.1 fun s hs => fits_iff.2 (h.2 s hs)
  refine ⟨⟨fun h => ?_, fun ⟨bytes, hbytes, _⟩ => countsFit_of_toBytes hbytes⟩, fun h => ?_, ?_⟩
  · obtain ⟨bytes, hbytes⟩ := hwritten h
    obtain ⟨-, tail, htail, heq⟩ := toBytes_eq_ok_iff.1 hbytes
    refine ⟨bytes, hbytes, parse_toBytes hbytes, ?_⟩
    rw [← heq, List.length_append, length_indexHeader, (holds_of_sessionsBytes htail).length_eq]
  · cases hbytes : index.toBytes with
    | error e => exact ⟨e, rfl⟩
    | ok bytes => exact absurd (countsFit_of_toBytes hbytes) h
  · rintro ⟨e, he⟩ h
    obtain ⟨bytes, hbytes⟩ := hwritten h
    rw [he] at hbytes
    cases hbytes

/-! ## Reserved bytes -/

/-- Bytes with zeros at some places. -/
def zeroAt (p : Nat → Bool) (bytes : List UInt8) : List UInt8 :=
  bytes.mapIdx fun i b => if p i then 0 else b

section

variable {p q : Nat → Bool}

@[simp] theorem length_zeroAt : (zeroAt p bytes).length = bytes.length :=
  List.length_mapIdx

theorem getElem?_zeroAt_of_false {i : Nat} (h : p i = false) : (zeroAt p bytes)[i]? = bytes[i]? := by
  simp [zeroAt, h]

theorem zeroAt_append (xs ys : List UInt8) :
    zeroAt p (xs ++ ys) = zeroAt p xs ++ zeroAt (fun i => p (i + xs.length)) ys :=
  List.mapIdx_append

theorem zeroAt_congr (h : ∀ i < bytes.length, p i = q i) : zeroAt p bytes = zeroAt q bytes := by
  refine List.mapIdx_eq_mapIdx_iff.2 fun i hi => ?_
  rw [h i hi]

theorem zeroAt_of_false (h : ∀ i < bytes.length, p i = false) : zeroAt p bytes = bytes := by
  rw [zeroAt_congr h]
  simp [zeroAt, List.mapIdx_eq_iff]

theorem zeroAt_of_true (h : ∀ i < bytes.length, p i = true) :
    zeroAt p bytes = List.replicate bytes.length 0 := by
  rw [zeroAt_congr h]
  simp [zeroAt, List.mapIdx_eq_replicate_iff]

end

/-- Indicates the reserved bytes of a header, counted from its first byte. -/
def isReservedInHeader (i : Nat) : Bool :=
  12 ≤ i && i < 16

/-- Indicates the reserved bytes of sessions, counted from the first byte of the first of them. -/
def isReservedIn : List SessionRecord → Nat → Bool
  | [], _ => false
  | s :: ss, i =>
    if i < sessionSize s then isReservedInHeader i else isReservedIn ss (i - sessionSize s)

/-- Indicates the reserved bytes of an index. -/
def isReserved (index : StoreIndex) (i : Nat) : Bool :=
  16 ≤ i && isReservedIn index.sessions (i - 16)

/-- Bytes with zeros where the reserved bytes of an index are. -/
def clearReserved (index : StoreIndex) (bytes : List UInt8) : List UInt8 :=
  zeroAt index.isReserved bytes

/-- Clearing a header leaves what stands before and behind the reserved word. -/
theorem zeroAt_isReservedInHeader {front word back : List UInt8} (hfront : front.length = 12)
    (hword : word.length = 4) : zeroAt isReservedInHeader (front ++ (word ++ back)) =
      front ++ (word32 0 ++ back) := by
  have hzero : word32 0 = List.replicate word.length 0 := by rw [hword]; decide
  rw [zeroAt_append, zeroAt_append, zeroAt_of_false, zeroAt_of_true, zeroAt_of_false, hzero]
  · intro i hi
    simp [isReservedInHeader, hfront, hword]
  · intro i hi
    simp only [isReservedInHeader, hfront, Bool.and_eq_true, decide_eq_true_eq]
    omega
  · intro i hi
    simp only [isReservedInHeader, Bool.and_eq_false_iff, decide_eq_false_iff_not]
    omega

/-- Bytes are those of a session, whatever its reserved word is, if they are without that word. -/
theorem zeroAt_eq_sessionBytes_iff : zeroAt isReservedInHeader held = sessionBytes s ↔
    ∃ word, word.length = 4 ∧ held = sessionBytesWith word s := by
  obtain ⟨front, back, hfront, heq⟩ : ∃ front back : List UInt8, front.length = 12 ∧
      ∀ word, sessionBytesWith word s = front ++ (word ++ back) := by
    refine ⟨word32 (Text.Utf8.ofString s.id).length ++ word32 s.windows.length ++
      word32 s.free.length, word64 s.fileEnd.toNat ++ Text.Utf8.ofString s.id ++
      s.windows.flatMap windowBytes ++ s.free.flatMap freeBytes, by simp [word32], fun word => ?_⟩
    simp only [sessionBytesWith, headerWith, List.append_assoc]
  rw [sessionBytes_eq, heq]
  simp only [heq]
  constructor
  · intro h
    have hlength := congrArg List.length h
    simp only [length_zeroAt, List.length_append, hfront, word32,
      LittleEndian.length_toBytes] at hlength
    -- The same three parts can be told apart in the bytes before they were cleared.
    have hsplit : held = held.take 12 ++ ((held.drop 12).take 4 ++ held.drop 16) := by
      rw [← List.drop_drop (i := 4) (j := 12), List.take_append_drop, List.take_append_drop]
    have hfrontLength : (held.take 12).length = 12 := by
      rw [List.length_take]
      omega
    have hwordLength : ((held.drop 12).take 4).length = 4 := by
      rw [List.length_take, List.length_drop]
      omega
    rw [hsplit, zeroAt_isReservedInHeader hfrontLength hwordLength] at h
    obtain ⟨htake, hrest⟩ := List.append_inj h (hfrontLength.trans hfront.symm)
    refine ⟨(held.drop 12).take 4, hwordLength, ?_⟩
    rw [← List.append_cancel_left hrest, ← htake]
    exact hsplit
  · rintro ⟨word, hword, rfl⟩
    exact zeroAt_isReservedInHeader hfront hword

/-- Clearing the bytes of sessions clears those of the first one and those of the others. -/
theorem zeroAt_isReservedIn_cons {tail : List UInt8} (h : held.length = sessionSize s) :
    zeroAt (isReservedIn (s :: ss)) (held ++ tail) =
      zeroAt isReservedInHeader held ++ zeroAt (isReservedIn ss) tail := by
  rw [zeroAt_append]
  congr 1
  · refine zeroAt_congr fun i hi => ?_
    rw [isReservedIn, if_pos (h ▸ hi)]
  · refine zeroAt_congr fun i _ => ?_
    rw [isReservedIn, if_neg (by omega), h, Nat.add_sub_cancel]

theorem length_sessionBytes (s : SessionRecord) : (sessionBytes s).length = sessionSize s :=
  length_sessionBytesWith (LittleEndian.length_toBytes ..) s

/-- Bytes are those of sessions if they are what is written for them, the reserved ones excepted. -/
theorem holds_iff_sessionsBytes :
    Holds ss held ↔ sessionsBytes ss = .ok (zeroAt (isReservedIn ss) held) := by
  constructor
  · intro h
    induction h with
    | nil => rfl
    | @cons s ss word tail hfits hword htail ih =>
      rw [zeroAt_isReservedIn_cons (length_sessionBytesWith hword s)]
      exact sessionsBytes_cons_eq_ok_iff.2 ⟨hfits, _, ih, by
        rw [zeroAt_eq_sessionBytes_iff.2 ⟨word, hword, rfl⟩]⟩
  · intro h
    induction ss generalizing held with
    | nil =>
      rw [sessionsBytes, Except.ok.injEq] at h
      have hnil : held = [] := by simpa using congrArg List.length h.symm
      rw [hnil]
      exact .nil
    | cons s ss ih =>
      obtain ⟨hfits, tail, htail, heq⟩ := sessionsBytes_cons_eq_ok_iff.1 h
      have hlength := congrArg List.length heq
      rw [List.length_append, length_zeroAt, length_sessionBytes] at hlength
      have hfirst : (held.take (sessionSize s)).length = sessionSize s := by
        rw [List.length_take]
        omega
      rw [← List.take_append_drop (sessionSize s) held, zeroAt_isReservedIn_cons hfirst] at heq
      obtain ⟨hs, hss⟩ := List.append_inj heq.symm (by
        rw [length_zeroAt, hfirst, length_sessionBytes])
      obtain ⟨word, hword, hheld⟩ := zeroAt_eq_sessionBytes_iff.1 hs
      rw [← List.take_append_drop (sessionSize s) held, hheld]
      exact .cons hfits hword (ih (hss ▸ htail))

/-- Clearing an index clears the bytes behind its header. -/
theorem clearReserved_append {header : List UInt8} (h : header.length = 16) :
    index.clearReserved (header ++ held) =
      header ++ zeroAt (isReservedIn index.sessions) held := by
  rw [clearReserved, zeroAt_append, zeroAt_of_false]
  · congr 1
    refine zeroAt_congr fun i _ => ?_
    simp [isReserved, h]
  · intro i hi
    simp only [isReserved, Bool.and_eq_false_iff, decide_eq_false_iff_not]
    omega

/-- Bytes are read as an index if they are what is written for it, the reserved ones excepted. -/
theorem parse_eq_ok_iff_toBytes :
    parse bytes = .ok index ↔ index.toBytes = .ok (index.clearReserved bytes) := by
  rw [parse_eq_ok_iff, toBytes_eq_ok_iff]
  constructor
  · rintro ⟨hcount, held, hheld, rfl⟩
    exact ⟨hcount, _, holds_iff_sessionsBytes.1 hheld,
      (clearReserved_append (length_indexHeader _)).symm⟩
  · rintro ⟨hcount, tail, htail, heq⟩
    have hlength := congrArg List.length heq
    rw [List.length_append, length_indexHeader, clearReserved, length_zeroAt] at hlength
    have hheader : (bytes.take 16).length = 16 := by
      rw [List.length_take]
      omega
    rw [← List.take_append_drop 16 bytes, clearReserved_append hheader] at heq
    obtain ⟨hfirst, hrest⟩ := List.append_inj heq ((length_indexHeader _).trans hheader.symm)
    refine ⟨hcount, bytes.drop 16, holds_iff_sessionsBytes.2 (hrest ▸ htail), ?_⟩
    rw [hfirst, List.take_append_drop]

/-- Nothing may follow an index. -/
theorem parse_append_of_ok (h : parse bytes = .ok index) {tail : List UInt8} (htail : tail ≠ []) :
    parse (bytes ++ tail) = .error (.trailingBytes tail.length) := by
  obtain ⟨hcount, held, hheld, rfl⟩ := parse_eq_ok_iff.1 h
  rw [List.append_assoc, parse_append hcount hheld, if_neg htail]

/-- Bytes are read as an index if and only if they are what is written for it, the reserved bytes of
its sessions excepted; otherwise there is an error. Such bytes can neither be cut short nor go on, and
others for the same index differ from them in reserved bytes only. -/
theorem parse_iff_clearReserved (bytes : List UInt8) :
    (∀ index, parse bytes = .ok index ↔ index.toBytes = .ok (index.clearReserved bytes)) ∧
      ((∃ e, parse bytes = .error e) ↔
        ∀ index : StoreIndex, index.toBytes ≠ .ok (index.clearReserved bytes)) ∧
      ∀ index, parse bytes = .ok index →
        (∀ tail, tail ≠ [] → parse (bytes ++ tail) = .error (.trailingBytes tail.length)) ∧
        (∀ front tail, front ++ tail = bytes → tail ≠ [] → ∃ e, parse front = .error e) ∧
        ∀ other, parse other = .ok index → other.length = bytes.length ∧
          ∀ i, index.isReserved i = false → other[i]? = bytes[i]? := by
  refine ⟨fun index => parse_eq_ok_iff_toBytes, ⟨?_, ?_⟩, fun index h => ⟨fun tail htail => ?_,
    fun front tail heq htail => ?_, fun other hother => ?_⟩⟩
  · rintro ⟨e, he⟩ index hindex
    rw [parse_eq_ok_iff_toBytes.2 hindex] at he
    cases he
  · intro hnone
    cases hparse : parse bytes with
    | error e => exact ⟨e, rfl⟩
    | ok index => exact absurd (parse_eq_ok_iff_toBytes.1 hparse) (hnone index)
  · exact parse_append_of_ok h htail
  · cases hfront : parse front with
    | error e => exact ⟨e, rfl⟩
    | ok shorter =>
      rw [← heq, parse_append_of_ok hfront htail] at h
      cases h
  · -- Both are the bytes that are written, up to the reserved ones.
    have hclear : index.clearReserved other = index.clearReserved bytes := by
      have hboth := (parse_eq_ok_iff_toBytes.1 hother).symm.trans (parse_eq_ok_iff_toBytes.1 h)
      rwa [Except.ok.injEq] at hboth
    constructor
    · simpa [clearReserved] using congrArg List.length hclear
    · intro i hi
      have hbyte := congrArg (·[i]?) hclear
      dsimp only [clearReserved] at hbyte
      rwa [getElem?_zeroAt_of_false hi, getElem?_zeroAt_of_false hi] at hbyte

theorem parse_iff_clearReserved_of_marked :
    parse (indexHeader 1 ++ sessionBytesWith [7, 7, 7, 7] { id := "a", fileEnd := 5 }) =
        .ok { sessions := [{ id := "a", fileEnd := 5 }] } ∧
      parse (indexHeader 1 ++ sessionBytesWith [7, 7, 7, 7] { id := "a", fileEnd := 5 } ++ [0]) =
        .error (.trailingBytes 1) ∧
      (∃ e, parse (indexHeader 1) = .error e) ∧
      ∀ i, StoreIndex.isReserved { sessions := [{ id := "a", fileEnd := 5 }] } i = false →
        (indexHeader 1 ++ sessionBytes { id := "a", fileEnd := 5 })[i]? =
          (indexHeader 1 ++ sessionBytesWith [7, 7, 7, 7] { id := "a", fileEnd := 5 })[i]? := by
  have hparse : parse (indexHeader 1 ++ sessionBytesWith [7, 7, 7, 7] { id := "a", fileEnd := 5 }) =
      .ok { sessions := [{ id := "a", fileEnd := 5 }] } :=
    parse_eq_ok_iff.2 ⟨by decide, _, .cons (by decide) rfl .nil, by rw [List.append_nil]; rfl⟩
  have hother : parse (indexHeader 1 ++ sessionBytes { id := "a", fileEnd := 5 }) =
      .ok { sessions := [{ id := "a", fileEnd := 5 }] } :=
    parse_eq_ok_iff.2 ⟨by decide, _, .cons (by decide) rfl .nil, by rw [List.append_nil]; rfl⟩
  obtain ⟨hlonger, hshorter, hsame⟩ := (parse_iff_clearReserved _).2.2 _ hparse
  exact ⟨hparse, hlonger [0] (by decide), hshorter _ _ rfl (by decide), (hsame _ hother).2⟩

end StoreIndex

end StatefulPages
