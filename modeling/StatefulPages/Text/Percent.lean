import StatefulPages.Text.Hex
import StatefulPages.Text.Utf8

/-!
# Percent escapes

The escapes of URLs, as the library `percent_encoding` documents them. A byte is escaped as `%` and its
two hexadecimal digits, upper case when written (`utf8_percent_encode`) and either case when read
(`percent_decode_str`). Reading accepts every text: a `%` that two digits do not follow stands for itself,
and the bytes are taken for UTF-8 as `from_utf8_lossy` documents it, with one `U+FFFD` for each maximal
part that is not well-formed.
-/

namespace StatefulPages.Text.Percent

/-- The upper case digit to base 16. -/
def upperDigit (n : Nat) : Char :=
  (Nat.digitChar n).toUpper

/-- A byte as `%` and two digits. -/
def escapeByte (b : UInt8) : List Char :=
  ['%', upperDigit (b.toNat / 16), upperDigit (b.toNat % 16)]

/-- A character as it is if it is plain, and else as its escaped bytes. -/
def encodeChar (plain : Char → Bool) (c : Char) : List Char :=
  if plain c then [c] else (Utf8.encodeChar c).flatMap escapeByte

/-- A text with all characters escaped that are not plain. -/
def encode (plain : Char → Bool) (cs : List Char) : List Char :=
  cs.flatMap (encodeChar plain)

/-- The byte that two digits name. -/
def byte? (high low : Char) : Option UInt8 :=
  match hexValue? high, hexValue? low with
  | some h, some l => some (UInt8.ofNat (16 * h + l))
  | _, _ => none

/-- The bytes that a text stands for. -/
def bytes : List Char → List UInt8
  | [] => []
  | '%' :: high :: low :: cs =>
    match byte? high low with
    | some b => b :: bytes cs
    | none => Utf8.encodeChar '%' ++ bytes (high :: low :: cs)
  | c :: cs => Utf8.encodeChar c ++ bytes cs

/-- The text that an escaped text stands for. -/
def decode (cs : List Char) : List Char :=
  Utf8.decodeLossy (bytes cs)

end StatefulPages.Text.Percent
