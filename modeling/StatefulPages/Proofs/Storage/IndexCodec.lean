import StatefulPages.Storage.Index

/-!
# Reading an index that was written

`StoreIndex.parse_toBytes`: what `StoreIndex.toBytes` writes is read back by `StoreIndex.parse`. Each
reader takes from the front of the bytes what the writer of its part has put there, whatever follows
(`readRecords_append`, `readSession_append`, `readSessions_append`).
-/

namespace StatefulPages

namespace StoreIndex

variable {rest : List UInt8} {number n width start : Nat}

@[simp] theorem ok_bind {α β : Type} (a : α) (f : α → Except IndexError β) :
    (Except.ok a >>= f) = f a := rfl

theorem take_append {xs : List UInt8} (h : xs.length = n) : take n (xs ++ rest) = .ok (xs, rest) := by
  rw [take, List.take_left' h, List.drop_left' h, if_pos h]

/-- A field is read as the number that stands there. -/
theorem fieldAt_append (before : List UInt8) (hstart : before.length = start)
    (hn : n < LittleEndian.valueCount width) (rest : List UInt8) :
    fieldAt (before ++ (LittleEndian.toBytes width n ++ rest)) start width = n := by
  rw [fieldAt, List.drop_left' hstart, List.take_left' (LittleEndian.length_toBytes ..),
    LittleEndian.ofBytes_toBytes, Nat.mod_eq_of_lt hn]

/-! ## Records -/

theorem length_windowBytes (w : WindowRecord) : (windowBytes w).length = 16 := by
  simp [windowBytes, word32, word64]

theorem length_freeBytes (r : FreeRecord) : (freeBytes r).length = 16 := by
  simp [freeBytes, word64]

theorem windowOfBytes_windowBytes (w : WindowRecord) : windowOfBytes (windowBytes w) = w := by
  have hpage : fieldAt (windowBytes w) 0 4 = w.page.toNat := by
    rw [windowBytes, List.append_assoc]
    exact fieldAt_append [] rfl w.page.toNat_lt _
  have hsize : fieldAt (windowBytes w) 4 4 = w.size.toNat := by
    rw [windowBytes, List.append_assoc]
    exact fieldAt_append _ (LittleEndian.length_toBytes ..) w.size.toNat_lt _
  have hoffset : fieldAt (windowBytes w) 8 8 = w.offset.toNat := by
    rw [windowBytes, ← List.append_nil (word64 _)]
    refine fieldAt_append _ ?_ w.offset.toNat_lt _
    simp [word32]
  rw [windowOfBytes, hpage, hsize, hoffset, UInt32.ofNat_toNat, UInt32.ofNat_toNat,
    UInt64.ofNat_toNat]

theorem freeOfBytes_freeBytes (r : FreeRecord) : freeOfBytes (freeBytes r) = r := by
  have hoffset : fieldAt (freeBytes r) 0 8 = r.offset.toNat :=
    fieldAt_append [] rfl r.offset.toNat_lt _
  have hsize : fieldAt (freeBytes r) 8 8 = r.size.toNat := by
    rw [freeBytes, ← List.append_nil (word64 r.size.toNat)]
    exact fieldAt_append _ (LittleEndian.length_toBytes ..) r.size.toNat_lt _
  rw [freeOfBytes, hoffset, hsize, UInt64.ofNat_toNat, UInt64.ofNat_toNat]

/-- Records are read back, whatever follows them. -/
theorem readRecords_append {α : Type} {read : List UInt8 → α} {write : α → List UInt8}
    (hlength : ∀ x, (write x).length = 16) (hread : ∀ x, read (write x) = x) (xs : List α) :
    readRecords read xs.length (xs.flatMap write ++ rest) = .ok (xs, rest) := by
  induction xs with
  | nil => rfl
  | cons x xs ih =>
    rw [List.length_cons, List.flatMap_cons, List.append_assoc, readRecords,
      take_append (hlength x), ok_bind]
    dsimp only
    rw [ih, hread, ok_bind]

/-! ## Sessions -/

/-- The header of a session with any word in the place of the reserved one. -/
def headerWith (word : List UInt8) (s : SessionRecord) : List UInt8 :=
  word32 (Text.Utf8.ofString s.id).length ++ word32 s.windows.length ++ word32 s.free.length ++
    word ++ word64 s.fileEnd.toNat

/-- The bytes of a session with any word in the place of the reserved one. -/
def sessionBytesWith (word : List UInt8) (s : SessionRecord) : List UInt8 :=
  headerWith word s ++ Text.Utf8.ofString s.id ++ s.windows.flatMap windowBytes ++
    s.free.flatMap freeBytes

theorem sessionBytes_eq (s : SessionRecord) : sessionBytes s = sessionBytesWith (word32 0) s := rfl

/-- Indicates the bytes of sessions, whatever is in the reserved ones. -/
inductive Holds : List SessionRecord → List UInt8 → Prop where
  | nil : Holds [] []
  | cons {s : SessionRecord} {ss : List SessionRecord} {word bytes : List UInt8}
      (hfits : fits s) (hword : word.length = 4) (htail : Holds ss bytes) :
      Holds (s :: ss) (sessionBytesWith word s ++ bytes)

theorem length_headerWith {word : List UInt8} (hword : word.length = 4) (s : SessionRecord) :
    (headerWith word s).length = 24 := by
  simp [headerWith, word32, word64, hword]

/-- The numbers in the header of a session. -/
theorem fields_headerWith {s : SessionRecord} {word : List UInt8} (h : fits s)
    (hword : word.length = 4) :
    fieldAt (headerWith word s) 0 4 = (Text.Utf8.ofString s.id).length ∧
      fieldAt (headerWith word s) 4 4 = s.windows.length ∧
      fieldAt (headerWith word s) 8 4 = s.free.length ∧
      fieldAt (headerWith word s) 16 8 = s.fileEnd.toNat := by
  simp only [fits, Bool.and_eq_true, decide_eq_true_eq] at h
  obtain ⟨⟨hid, hwindows⟩, hfree⟩ := h
  simp only [headerWith, List.append_assoc]
  refine ⟨fieldAt_append [] rfl hid _, fieldAt_append _ ?_ hwindows _, ?_, ?_⟩
  · exact LittleEndian.length_toBytes ..
  · rw [← List.append_assoc]
    refine fieldAt_append _ ?_ hfree _
    simp [word32]
  · rw [← List.append_assoc, ← List.append_assoc, ← List.append_assoc,
      ← List.append_nil (word64 _)]
    refine fieldAt_append _ ?_ s.fileEnd.toNat_lt _
    simp [word32, hword]

/-- A session is read back, whatever follows it. -/
theorem readSession_append {s : SessionRecord} {word : List UInt8} (h : fits s)
    (hword : word.length = 4) (number : Nat) :
    readSession number (sessionBytesWith word s ++ rest) = .ok (s, rest) := by
  obtain ⟨hid, hwindows, hfree, hend⟩ := fields_headerWith h hword
  rw [readSession, sessionBytesWith, List.append_assoc, List.append_assoc, List.append_assoc,
    take_append (length_headerWith hword s), ok_bind]
  dsimp only
  rw [take_append hid.symm, ok_bind]
  dsimp only
  rw [Text.Utf8.toString?_ofString, hwindows, hfree, hend]
  dsimp only
  rw [readRecords_append length_windowBytes windowOfBytes_windowBytes, ok_bind]
  dsimp only
  rw [readRecords_append length_freeBytes freeOfBytes_freeBytes, ok_bind, UInt64.ofNat_toNat]

/-- The sessions are read back, whatever follows them. -/
theorem readSessions_append {ss : List SessionRecord} {bytes : List UInt8} (h : Holds ss bytes)
    (number : Nat) : readSessions ss.length number (bytes ++ rest) = .ok (ss, rest) := by
  induction h generalizing number with
  | nil => rfl
  | cons hfits hword htail ih =>
    rw [List.length_cons, readSessions, List.append_assoc, readSession_append hfits hword, ok_bind]
    dsimp only
    rw [ih, ok_bind]

theorem sessionsBytes_cons_eq_ok_iff {s : SessionRecord} {ss : List SessionRecord}
    {bytes : List UInt8} : sessionsBytes (s :: ss) = .ok bytes ↔
      fits s ∧ ∃ tail, sessionsBytes ss = .ok tail ∧ sessionBytes s ++ tail = bytes := by
  rw [sessionsBytes]
  split
  · rename_i hfits
    cases sessionsBytes ss with
    | error e => simp [Except.map]
    | ok tail => simp [Except.map, hfits]
  · rename_i hfits
    simp [hfits]

theorem holds_of_sessionsBytes {ss : List SessionRecord} {bytes : List UInt8}
    (h : sessionsBytes ss = .ok bytes) : Holds ss bytes := by
  induction ss generalizing bytes with
  | nil =>
    cases h
    exact .nil
  | cons s ss ih =>
    obtain ⟨hfits, tail, htail, hbytes⟩ := sessionsBytes_cons_eq_ok_iff.1 h
    rw [← hbytes, sessionBytes_eq]
    exact .cons hfits (LittleEndian.length_toBytes ..) (ih htail)

theorem sessionsBytes_of_fits {ss : List SessionRecord} (h : ∀ s ∈ ss, fits s) :
    ∃ bytes, sessionsBytes ss = .ok bytes := by
  induction ss with
  | nil => exact ⟨[], rfl⟩
  | cons s ss ih =>
    obtain ⟨tail, htail⟩ := ih fun x hx => h x (List.mem_cons_of_mem s hx)
    exact ⟨_, sessionsBytes_cons_eq_ok_iff.2 ⟨h s List.mem_cons_self, tail, htail, rfl⟩⟩

/-! ## Indexes -/

/-- The part of an index before its sessions, for a number of sessions. -/
def indexHeader (count : Nat) : List UInt8 :=
  magic ++ word32 version ++ word32 count

theorem toBytes_eq_ok_iff {index : StoreIndex} {bytes : List UInt8} : index.toBytes = .ok bytes ↔
    index.sessions.length < Text.wordCount ∧ ∃ tail, sessionsBytes index.sessions = .ok tail ∧
      indexHeader index.sessions.length ++ tail = bytes := by
  rw [toBytes]
  split
  · rename_i hcount
    cases sessionsBytes index.sessions with
    | error e => simp [Except.map]
    | ok tail => simp [Except.map, hcount, indexHeader]
  · rename_i hcount
    simp [hcount]

/-- An index is written if all counts fit into their fields. -/
theorem toBytes_of_fits {index : StoreIndex} (hcount : index.sessions.length < Text.wordCount)
    (h : ∀ s ∈ index.sessions, fits s) : ∃ bytes, index.toBytes = .ok bytes := by
  obtain ⟨tail, htail⟩ := sessionsBytes_of_fits h
  exact ⟨_, toBytes_eq_ok_iff.2 ⟨hcount, tail, htail, rfl⟩⟩

theorem length_indexHeader (count : Nat) : (indexHeader count).length = 16 := by
  simp [indexHeader, magic, word32]

/-- What is in the part before the sessions. -/
theorem fields_indexHeader {count : Nat} (hcount : count < Text.wordCount) :
    (indexHeader count).take 8 = magic ∧ fieldAt (indexHeader count) 8 4 = version ∧
      fieldAt (indexHeader count) 12 4 = count := by
  rw [indexHeader]
  refine ⟨?_, ?_, ?_⟩
  · rw [List.append_assoc]
    exact List.take_left' rfl
  · rw [List.append_assoc]
    exact fieldAt_append magic rfl (by decide) _
  · rw [← List.append_nil (word32 count)]
    refine fieldAt_append _ ?_ hcount _
    simp [magic, word32]

/-- The sessions of an index are read, and nothing may follow them. -/
theorem parse_append {ss : List SessionRecord} {bytes : List UInt8}
    (hcount : ss.length < Text.wordCount) (h : Holds ss bytes) :
    parse (indexHeader ss.length ++ (bytes ++ rest)) =
      if rest = [] then .ok { sessions := ss } else .error (.trailingBytes rest.length) := by
  obtain ⟨hmagic, hversion, hfield⟩ := fields_indexHeader hcount
  rw [parse, take_append (length_indexHeader ss.length), ok_bind]
  dsimp only
  rw [hmagic, hversion, hfield, if_neg (not_not_intro rfl), if_neg (not_not_intro rfl),
    readSessions_append h, ok_bind]

/-- An index that was written is read back. -/
theorem parse_toBytes {index : StoreIndex} {bytes : List UInt8} (h : index.toBytes = .ok bytes) :
    parse bytes = .ok index := by
  obtain ⟨hcount, tail, htail, hbytes⟩ := toBytes_eq_ok_iff.1 h
  rw [← hbytes, ← List.append_nil tail, parse_append hcount (holds_of_sessionsBytes htail),
    if_pos rfl]

end StoreIndex

end StatefulPages
