import StatefulPages.PageId

/-!
# The layout of a data file

The pages of a session lie in one file, each in a window of its own. A `Layout` lists the windows in
the order they were made, the ranges between them that are free, and where the file ends.

`Layout.allocate` takes the first free range that is large enough, or appends to the file.
`Layout.release` frees the range of a window: it is joined with the free ranges it touches, and a
free range at the end of the file shortens the file.
-/

namespace StatefulPages

/-- The bytes of the data file that hold a page. -/
structure Window where
  page : PageId
  offset : Nat
  size : Nat
  deriving DecidableEq, Repr, Inhabited

/-- The offset after the last byte of a window. -/
def Window.stop (w : Window) : Nat :=
  w.offset + w.size

/-- Bytes of the data file that no window holds. -/
structure FreeRange where
  offset : Nat
  size : Nat
  deriving DecidableEq, Repr, Inhabited

namespace FreeRange

/-- The offset after the last byte of a free range. -/
def stop (r : FreeRange) : Nat :=
  r.offset + r.size

/-- A free range in front of others, joined with the first one if it touches it. -/
def attach (r : FreeRange) : List FreeRange → List FreeRange
  | [] => [r]
  | next :: rest =>
    if r.stop = next.offset then { r with size := r.size + next.size } :: rest
    else r :: next :: rest

/-- A free range put into others that are sorted by offset. -/
def insert (f : FreeRange) : List FreeRange → List FreeRange
  | [] => [f]
  | r :: rest => if r.offset < f.offset then attach r (insert f rest) else attach f (r :: rest)

/-- The offset of the first range of at least `size` bytes, and the ranges with these bytes taken
from its start. -/
def take? (size : Nat) : List FreeRange → Option (Nat × List FreeRange)
  | [] => none
  | r :: rest =>
    if size ≤ r.size then
      if r.size = size then some (r.offset, rest)
      else some (r.offset, { offset := r.offset + size, size := r.size - size } :: rest)
    else (take? size rest).map fun (offset, rest) => (offset, r :: rest)

end FreeRange

/-- The windows and the free ranges of a data file. -/
structure Layout where
  /-- The oldest window comes first. -/
  windows : List Window := []
  /-- Sorted by offset. -/
  free : List FreeRange := []
  /-- Where a window that is appended begins. -/
  fileEnd : Nat := 0
  deriving DecidableEq, Repr, Inhabited

namespace Layout

/-- Gives the last free range back to the end of the file, if it lies there. -/
def trim (l : Layout) : Layout :=
  match l.free.getLast? with
  | some r =>
    if r.stop = l.fileEnd then { l with free := l.free.dropLast, fileEnd := r.offset } else l
  | none => l

/-- Frees the bytes of a window. -/
def release (l : Layout) (w : Window) : Layout :=
  if w.size = 0 then l
  else trim { l with free := FreeRange.insert { offset := w.offset, size := w.size } l.free }

/-- Finds room for `size` bytes. -/
def allocate (l : Layout) (size : Nat) : Nat × Layout :=
  if size = 0 then (l.fileEnd, l)
  else match FreeRange.take? size l.free with
    | some (offset, free) => (offset, { l with free })
    | none => (l.fileEnd, { l with fileEnd := l.fileEnd + size })

/-- The sum of the sizes of windows. -/
def sizeSum : List Window → Nat
  | [] => 0
  | w :: ws => w.size + sizeSum ws

/-- The sum of the sizes of all windows. -/
def totalSize (l : Layout) : Nat :=
  sizeSum l.windows

end Layout

end StatefulPages
