import StatefulPages.Routing.Framework
import StatefulPages.Routing.Mount

/-!
# Sites

The mappers of a site are its own, in the order home page, page instances, page classes, resources
and buffered responses, and after them the mounts in the order they were added.
-/

namespace StatefulPages

/-- A context with the pages that are mounted. -/
structure Site where
  context : Context
  /-- The mount added last comes first. -/
  mounts : List Mount := []

namespace Site

def mount (s : Site) (m : Mount) : Site :=
  { s with mounts := m :: s.mounts }

/-- Mounts a page class at a path. -/
def mountPage (s : Site) (path : String) (pageClass : PageClass) : Except MountError Site :=
  (Mount.atPath path pageClass).map s.mount

/-- The mappers that a site has without mounts, the one added last first. -/
def framework (c : Context) : List Mapper :=
  [.buffered, .resource c, .bookmarkable c, .pageInstance c, .homePage c]

/-- All mappers of a site as one. -/
def mapper (s : Site) : Mapper :=
  .compound (s.mounts.map (·.mapper s.context) ++ framework s.context)

end Site

end StatefulPages
