import StatefulPages.Storage.Layout
import StatefulPages.Text.Decimal
import StatefulPages.Text.Hex

/-!
# Window tables

A `WindowTable` is the layout of a data file with a budget for the total size of the windows. When a
new window would exceed it, the oldest windows are given up until it fits or none is left; a window
larger than the budget is still made.

`WindowTable.check` looks for the first inconsistency of a table, and `WindowTable.ofLayout` accepts
a layout that has none.
-/

namespace StatefulPages

/-- An inconsistency of a window table. -/
inductive LayoutError where
  | duplicatePage (page : PageId)
  | wrongTotal (recorded actual : Nat)
  /-- Two free ranges that follow each other in the list, but not with a gap in the file. -/
  | adjacentFree (first second : FreeRange)
  | emptyFree (offset : Nat)
  | overlap (start stop start' stop' : Nat)
  | beyondEnd (start stop fileEnd : Nat)
  deriving DecidableEq, Repr, Inhabited

namespace LayoutError

def decimalText (n : Nat) : String :=
  String.ofList (Text.decimal n)

def hexText (n : Nat) : String :=
  "0x" ++ String.ofList (Text.hex n)

def rangeText (start stop : Nat) : String :=
  hexText start ++ ".." ++ hexText stop

def freeText (r : FreeRange) : String :=
  "FreeRange \x7b offset: " ++ decimalText r.offset ++ ", size: " ++ decimalText r.size ++ " \x7d"

/-- The message for an inconsistency. -/
def message : LayoutError → String
  | duplicatePage page => "Page " ++ decimalText page.toNat ++ " has more than one window."
  | wrongTotal recorded actual =>
    "Total window size is wrong. Recorded: " ++ decimalText recorded ++ ", actual: " ++
      decimalText actual
  | adjacentFree first second =>
    "Free ranges are unsorted, overlapping or not coalesced: " ++ freeText first ++ " " ++
      freeText second
  | emptyFree offset => "Free range at offset " ++ decimalText offset ++ " is empty."
  | overlap start stop start' stop' =>
    "Byte ranges overlap: " ++ rangeText start stop ++ " and " ++ rangeText start' stop'
  | beyondEnd start stop fileEnd =>
    "Byte range " ++ rangeText start stop ++ " extends past the end of the file (" ++
      hexText fileEnd ++ ")."

end LayoutError

/-- The layout of a data file, and the budget for its windows. -/
structure WindowTable extends Layout where
  /-- The sum of the sizes of the windows. -/
  total : Nat := 0
  budget : Nat
  deriving DecidableEq, Repr, Inhabited

namespace WindowTable

/-- The window of a page. -/
def find? (t : WindowTable) (page : PageId) : Option Window :=
  t.windows.find? (·.page = page)

/-! ## Changes -/

/-- The table without a window, whose bytes become free. -/
def discard (t : WindowTable) (w : Window) (rest : List Window) : WindowTable :=
  { t with toLayout := { t.release w with windows := rest }, total := t.total - w.size }

/-- Forgets the window of a page. -/
def remove (t : WindowTable) (page : PageId) : WindowTable :=
  match t.find? page with
  | some w => t.discard w (t.windows.eraseP (·.page = page))
  | none => t

/-- Gives up the windows of the list, the oldest first, until `size` more bytes fit. -/
def evict (size : Nat) : List Window → WindowTable → WindowTable
  | [], t => t
  | w :: rest, t =>
    if t.total + size ≤ t.budget then t else evict size rest (t.discard w rest)

/-- Appends a window of `size` bytes to the list, wherever it lies in the file. -/
def append (t : WindowTable) (page : PageId) (size : Nat) : Window × WindowTable :=
  let (offset, layout) := t.allocate size
  let w : Window := { page, offset, size }
  (w, { t with toLayout := { layout with windows := layout.windows ++ [w] }
               total := t.total + size })

/-- Makes a window for a page in place of the one it had. -/
def create (t : WindowTable) (page : PageId) (size : Nat) : Window × WindowTable :=
  let t := t.remove page
  (evict size t.windows t).append page size

/-! ## Consistency -/

/-- The first page that has a second window. -/
def duplicate? : List Window → Option PageId
  | [] => none
  | w :: rest => if rest.any (·.page = w.page) then some w.page else duplicate? rest

/-- The first pair of free ranges without a gap between them. -/
def adjacent? : List FreeRange → Option (FreeRange × FreeRange)
  | r :: next :: rest =>
    if next.offset ≤ r.stop then some (r, next) else adjacent? (next :: rest)
  | _ => none

/-- The ranges of the windows that are not empty, and the free ranges. -/
def ranges (l : Layout) : List (Nat × Nat) :=
  ((l.windows.filter (·.size ≠ 0)).map fun w => (w.offset, w.stop)) ++
    l.free.map fun r => (r.offset, r.stop)

/-- The ranges, sorted by where they start and then by where they stop. -/
def sortedRanges (l : Layout) : List (Nat × Nat) :=
  (ranges l).mergeSort fun a b => a.1 < b.1 || (a.1 == b.1 && a.2 ≤ b.2)

/-- The first pair of ranges of which the second starts before the first stops. -/
def overlap? : List (Nat × Nat) → Option ((Nat × Nat) × (Nat × Nat))
  | a :: b :: rest => if b.1 < a.2 then some (a, b) else overlap? (b :: rest)
  | _ => none

/-- The first inconsistency of a table. -/
def error? (t : WindowTable) : Option LayoutError :=
  match duplicate? t.windows with
  | some page => some (.duplicatePage page)
  | none =>
  if t.totalSize ≠ t.total then some (.wrongTotal t.total t.totalSize)
  else match adjacent? t.free with
  | some (r, next) => some (.adjacentFree r next)
  | none =>
  match t.free.find? (·.size = 0) with
  | some r => some (.emptyFree r.offset)
  | none =>
  match overlap? (sortedRanges t.toLayout) with
  | some (a, b) => some (.overlap a.1 a.2 b.1 b.2)
  | none =>
  match (sortedRanges t.toLayout).getLast? with
  | some last =>
    if t.fileEnd < last.2 then some (.beyondEnd last.1 last.2 t.fileEnd) else none
  | none => none

/-- Checks that a table is consistent. -/
def check (t : WindowTable) : Except LayoutError Unit :=
  match t.error? with
  | some e => .error e
  | none => .ok ()

/-- The table of a layout, which has to be consistent. Nothing is given up if it exceeds the
budget. -/
def ofLayout (l : Layout) (budget : Nat) : Except LayoutError WindowTable :=
  let t : WindowTable := { toLayout := l, total := l.totalSize, budget }
  match t.error? with
  | some e => .error e
  | none => .ok t

end WindowTable

end StatefulPages
