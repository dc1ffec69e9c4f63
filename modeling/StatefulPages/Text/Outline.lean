import StatefulPages.Text.Decimal
import StatefulPages.Text.Quoted

/-!
# Outlines of values

Nested values over several lines: what a value consists of stands between its brackets, one part
after the other, four columns further to the right and with a comma behind it.
-/

namespace StatefulPages.Text

/-- The lines that show a value. -/
abbrev Outline := List String

namespace Outline

/-- A value on one line. -/
def plain (text : String) : Outline :=
  [text]

/-- A text in quotes. -/
def text (s : String) : Outline :=
  plain (quoted s)

def number (n : Nat) : Outline :=
  plain (String.ofList (decimal n))

def truth (b : Bool) : Outline :=
  plain (if b then "true" else "false")

/-- A comma behind the last line. -/
def withComma : Outline → Outline
  | [] => []
  | [line] => [line ++ ","]
  | line :: lines => line :: withComma lines

/-- A part of a value, behind its label. -/
def part (label : String) : Outline → Outline
  | [] => []
  | line :: lines => (withComma ((label ++ line) :: lines)).map ("    " ++ ·)

/-- Parts between brackets. -/
def between (opening closing : String) (parts : Outline) : Outline :=
  opening :: parts ++ [closing]

/-- A value with named parts. -/
def record (name : String) (fields : List (String × Outline)) : Outline :=
  between (name ++ " \x7b") "\x7d" (fields.flatMap fun (label, value) => part (label ++ ": ") value)

/-- A value that wraps another one. -/
def wrapped (name : String) (value : Outline) : Outline :=
  between (name ++ "(") ")" (part "" value)

/-- A list of values. -/
def list {α : Type} (outline : α → Outline) (xs : List α) : Outline :=
  if xs.isEmpty then plain "[]" else between "[" "]" (xs.flatMap fun x => part "" (outline x))

/-- A value that may be missing. -/
def option {α : Type} (outline : α → Outline) : Option α → Outline
  | some x => wrapped "Some" (outline x)
  | none => plain "None"

end Outline

end StatefulPages.Text
