/-!
# Component paths in URLs

The path of a component holds ids with `:` between them. In a URL the ids have `-` between them, and
`~` in front of a character of an id takes it as it is.
-/

namespace StatefulPages.ComponentPath

/-- A character of a path, as a URL holds it. -/
def encodeChar (c : Char) : List Char :=
  if c = ':' then ['-'] else if c = '-' ∨ c = '~' then ['~', c] else [c]

/-- A path as a URL holds it. -/
def encode (cs : List Char) : List Char :=
  cs.flatMap encodeChar

/-- Reads a path back; a `~` with nothing behind it is refused. -/
def decode? : List Char → Option (List Char)
  | [] => some []
  | ['~'] => none
  | '~' :: c :: cs => (decode? cs).map (c :: ·)
  | c :: cs => (decode? cs).map ((if c = '-' then ':' else c) :: ·)

end StatefulPages.ComponentPath
