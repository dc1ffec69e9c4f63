/-!
# Failures of file operations
-/

namespace StatefulPages

/-- Why a call on a disk fails. -/
inductive IoError where
  | notFound
  /-- A name leads through something that is no folder. -/
  | notAFolder
  | isAFolder
  | alreadyExists
  /-- A path holds the character NUL. -/
  | invalidPath
  /-- A name has more than 255 bytes, or a path more than 4095. -/
  | nameTooLong
  /-- An offset exceeds those that files can have. -/
  | invalidOffset
  /-- A file has fewer bytes than were to be read. -/
  | unexpectedEnd
  /-- Something outside the tree of files. -/
  | outside
  deriving DecidableEq, Repr, Inhabited

end StatefulPages
