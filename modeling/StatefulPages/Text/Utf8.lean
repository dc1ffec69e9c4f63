/-!
# UTF-8

Characters as bytes and bytes as characters. `decodeLossy` reads any bytes: each maximal part that
cannot stand in well-formed UTF-8 becomes one `U+FFFD`. It is run byte by byte by a small machine
whose `State` says what the bytes since the last whole character allow next.
-/

namespace StatefulPages.Text.Utf8

/-- The bytes of a character. -/
def encodeChar (c : Char) : List UInt8 :=
  String.utf8EncodeChar c

/-- The bytes of a text. -/
def encode (cs : List Char) : List UInt8 :=
  cs.flatMap encodeChar

/-- The bytes of a string. -/
def ofString (s : String) : List UInt8 :=
  s.toByteArray.data.toList

/-- The string whose bytes these are, if they are well-formed. -/
def toString? (bytes : List UInt8) : Option String :=
  String.fromUTF8? ⟨bytes.toArray⟩

theorem toString?_ofString (s : String) : toString? (ofString s) = some s := by
  have h : (⟨s.toByteArray.data.toList.toArray⟩ : ByteArray) = s.toByteArray := by
    rw [Array.toArray_toList]
  rw [toString?, ofString, h, String.fromUTF8?, dif_pos s.isValidUTF8]
  rfl

/-- What stands for bytes that are not well-formed. -/
def replacement : Char := '\uFFFD'

/-- Where reading stands between two bytes. -/
inductive State where
  /-- Between characters. -/
  | start
  /-- Within a character with the code so far: the next byte has to be in `lo ... hi`, and
  `more` further bytes follow it. -/
  | within (more : Nat) (lo hi : UInt8) (code : Nat)
  deriving DecidableEq, Repr

/-- What the first byte of a character of several bytes calls for. -/
def lead? (b : UInt8) : Option State :=
  if 0xC2 ≤ b ∧ b ≤ 0xDF then some (.within 0 0x80 0xBF (b.toNat - 0xC0))
  else if b = 0xE0 then some (.within 1 0xA0 0xBF 0)
  else if b = 0xED then some (.within 1 0x80 0x9F 0xD)
  else if 0xE1 ≤ b ∧ b ≤ 0xEF then some (.within 1 0x80 0xBF (b.toNat - 0xE0))
  else if b = 0xF0 then some (.within 2 0x90 0xBF 0)
  else if 0xF1 ≤ b ∧ b ≤ 0xF3 then some (.within 2 0x80 0xBF (b.toNat - 0xF0))
  else if b = 0xF4 then some (.within 2 0x80 0x8F 4)
  else none

/-- Reads a byte between characters: what is complete after it, and the next state. -/
def first (b : UInt8) : List Char × State :=
  if b < 0x80 then ([Char.ofNat b.toNat], .start)
  else match lead? b with
    | some state => ([], state)
    | none => ([replacement], .start)

/-- Reads a byte. One that cannot go on with the character begun ends it, and is read anew. -/
def step : State → UInt8 → List Char × State
  | .start, b => first b
  | .within more lo hi code, b =>
    if lo ≤ b ∧ b ≤ hi then
      match more with
      | 0 => ([Char.ofNat (64 * code + (b.toNat - 0x80))], .start)
      | more + 1 => ([], .within more 0x80 0xBF (64 * code + (b.toNat - 0x80)))
    else (replacement :: (first b).1, (first b).2)

/-- Reads the bytes that are left; a character that they cut short is not well-formed. -/
def decodeFrom : State → List UInt8 → List Char
  | .start, [] => []
  | .within .., [] => [replacement]
  | state, b :: bs => (step state b).1 ++ decodeFrom (step state b).2 bs

/-- The text of bytes, with `U+FFFD` for each maximal part that is not well-formed. -/
def decodeLossy (bytes : List UInt8) : List Char :=
  decodeFrom .start bytes

end StatefulPages.Text.Utf8
