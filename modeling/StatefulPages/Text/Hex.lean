/-!
# Hexadecimal numbers
-/

namespace StatefulPages.Text

/-- The digits of a number to base 16, in lower case. -/
def hex (n : Nat) : List Char :=
  Nat.toDigits 16 n

/-- A text with `pad` in front of it up to the length `width`. -/
def padLeft (width : Nat) (pad : Char) (cs : List Char) : List Char :=
  List.replicate (width - cs.length) pad ++ cs

/-- The digits of a number to base 16 with zeros in front up to the length `width`. -/
def hexPadded (width n : Nat) : List Char :=
  padLeft width '0' (hex n)

/-- The two digits of a byte. -/
def hexByte (b : UInt8) : List Char :=
  hexPadded 2 b.toNat

/-- The value of a digit to base 16, in either case. -/
def hexValue? (c : Char) : Option Nat :=
  if '0' ≤ c ∧ c ≤ '9' then some (c.toNat - 48)
  else if 'a' ≤ c ∧ c ≤ 'f' then some (c.toNat - 87)
  else if 'A' ≤ c ∧ c ≤ 'F' then some (c.toNat - 55)
  else none

end StatefulPages.Text
