import StatefulPages.Text.Decimal
import StatefulPages.Text.Hex

/-!
# Hex dumps

Bytes in the layout that the library `pretty-hex` documents for `hex_dump`, its default configuration: a
title with the length, and then rows of 16 bytes, with the offset of the row, the bytes to base 16 in groups
of four, and the bytes as characters, with a dot for those that are not printable ASCII.
-/

namespace StatefulPages.Text

/-- How many bytes there are in a row. -/
def dumpWidth : Nat := 16

/-- The bytes of a row to base 16; `i` of them stand in front. -/
def dumpCells : (i : Nat) → List UInt8 → List Char
  | _, [] => []
  | i, b :: bs =>
    let gap := if i = 0 then [] else if i % 4 = 0 then [' ', ' '] else [' ']
    gap ++ hexByte b ++ dumpCells (i + 1) bs

/-- How wide the bytes of a full row are. -/
def dumpCellsWidth : Nat := 50

/-- A byte as a character. -/
def dumpChar (b : UInt8) : Char :=
  if 0x20 ≤ b ∧ b < 0x7F then Char.ofNat b.toNat else '.'

/-- A text with blanks behind it up to the length `width`. -/
def padRight (width : Nat) (cs : List Char) : List Char :=
  cs ++ List.replicate (width - cs.length) ' '

/-- How many digits an offset has at least in the dump of `length` bytes: four, or, if a full row at
the end has an offset that needs more, the next even number that is enough for it. -/
def dumpOffsetDigits (length : Nat) : Nat :=
  let digits := (hex (length - dumpWidth)).length
  max 4 (digits + digits % 2)

/-- The row of the bytes from an offset, which has at least `digits` digits. -/
def dumpRow (digits offset : Nat) (bytes : List UInt8) : List Char :=
  hexPadded digits offset ++ [':', ' ', ' ', ' '] ++ padRight dumpCellsWidth (dumpCells 0 bytes) ++
    [' ', ' ', ' '] ++ bytes.map dumpChar

/-- Up to `n` rows of bytes that begin at an offset. -/
def dumpRows (digits : Nat) : (n : Nat) → (offset : Nat) → List UInt8 → List (List Char)
  | 0, _, _ => []
  | n + 1, offset, bytes =>
    if bytes = [] then []
    else dumpRow digits offset (bytes.take dumpWidth) ::
      dumpRows digits n (offset + dumpWidth) (bytes.drop dumpWidth)

/-- The line above the rows. -/
def dumpTitle (bytes : List UInt8) : List Char :=
  "Length: ".toList ++ decimal bytes.length ++ " (0x".toList ++ hex bytes.length ++
    ") bytes".toList

/-- The dump of some bytes; without any, an empty line stands for the rows. -/
def hexDump (bytes : List UInt8) : List String :=
  let rows := dumpRows (dumpOffsetDigits bytes.length) bytes.length 0 bytes
  (dumpTitle bytes :: if rows = [] then [[]] else rows).map String.ofList

end StatefulPages.Text
