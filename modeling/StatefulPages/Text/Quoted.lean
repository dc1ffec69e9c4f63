import StatefulPages.Text.Hex
import StatefulPages.Text.Unprintable

/-!
# Quoted text

A text in double quotes, as messages show it. The quote, the backslash, tab, line feed, carriage
return and NUL have short escapes; any other character that cannot be shown is written by its code.
-/

namespace StatefulPages.Text

/-- A character within quotes. -/
def quotedChar (c : Char) : List Char :=
  if c = '"' then ['\\', '"']
  else if c = '\\' then ['\\', '\\']
  else if c = '\t' then ['\\', 't']
  else if c = '\n' then ['\\', 'n']
  else if c = '\r' then ['\\', 'r']
  else if c = '\x00' then ['\\', '0']
  else if 0x20 ≤ c.toNat ∧ c.toNat < 0x7F then [c]
  else if isUnprintable c then "\\u\x7b".toList ++ hex c.toNat ++ "\x7d".toList
  else [c]

/-- A text in double quotes. -/
def quoted (s : String) : String :=
  String.ofList ('"' :: s.toList.flatMap quotedChar ++ ['"'])

end StatefulPages.Text
