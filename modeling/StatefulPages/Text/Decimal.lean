/-!
# Decimal numbers

Numbers are written without leading zeros, and read with or without them. Digits are the ten ASCII
digits.
-/

namespace StatefulPages.Text

/-- The digits of a number. -/
def decimal (n : Nat) : List Char :=
  Nat.toDigits 10 n

/-- Reads a text of one or more digits. -/
def decimal? (cs : List Char) : Option Nat :=
  if cs ≠ [] ∧ cs.all Char.isDigit then some (Nat.ofDigitChars 10 cs 0) else none

/-- How many words of 32 bits there are. -/
def wordCount : Nat := 0x100000000

/-- A number as a 32-bit word, if it fits. -/
def word32? (n : Nat) : Option UInt32 :=
  if n < wordCount then some (UInt32.ofNat n) else none

/-- Reads a 32-bit word written in digits only. -/
def decimal32? (cs : List Char) : Option UInt32 :=
  (decimal? cs).bind word32?

/-- Reads a 32-bit word that a `+` may precede. -/
def signedDecimal32? : List Char → Option UInt32
  | '+' :: cs => decimal32? cs
  | cs => decimal32? cs

theorem decimal_ne_nil (n : Nat) : decimal n ≠ [] :=
  Nat.toDigits_ne_nil

theorem isDigit_of_mem_decimal {n : Nat} {c : Char} (h : c ∈ decimal n) : c.isDigit :=
  Nat.isDigit_of_mem_toDigits (by decide) (by decide) h

end StatefulPages.Text
