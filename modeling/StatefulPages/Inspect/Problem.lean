import StatefulPages.Disk.Basic

/-!
# Problems of the inspection tool
-/

namespace StatefulPages

/-- The text for an error of a disk, with the number that the operating system has for it. -/
def IoError.text : IoError → String
  | notFound => "No such file or directory (os error 2)"
  | notAFolder => "Not a directory (os error 20)"
  | isAFolder => "Is a directory (os error 21)"
  | alreadyExists => "File exists (os error 17)"
  | invalidPath => "file name contained an unexpected NUL byte"
  | nameTooLong => "File name too long (os error 36)"
  | invalidOffset => "Invalid argument (os error 22)"
  | unexpectedEnd => "failed to fill whole buffer"
  | outside => "Input/output error (os error 5)"

namespace Inspect

/-- Why the tool cannot do what it was asked for. -/
structure Problem where
  message : String
  cause : Option String := none
  deriving DecidableEq, Repr, Inhabited

/-- The text for a problem. -/
def Problem.text (p : Problem) : String :=
  "Error: " ++ p.message ++ "\n" ++
    p.cause.elim "" fun cause => "\nCaused by:\n    " ++ cause ++ "\n"

/-- Reports a failure of a disk as the cause of a problem. -/
def blame {α : Type} (message : String) : Except IoError α → Except Problem α
  | .ok x => .ok x
  | .error e => .error { message, cause := some e.text }

end Inspect

end StatefulPages
