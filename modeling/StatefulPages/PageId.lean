/-!
# Ids of pages
-/

namespace StatefulPages

/-- The id of a page within its session. -/
abbrev PageId := UInt32

end StatefulPages
