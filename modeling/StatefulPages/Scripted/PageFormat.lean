import StatefulPages.Page
import StatefulPages.Scripted.Format

/-!
# The bytes of pages

`Page.format` writes all fields of a page.
-/

namespace StatefulPages

/-- A name with its value. -/
def NamedValue.format : Format NamedValue :=
  (Format.text.pair .text).via (fun v => (v.name, v.value))
    (fun (name, value) => some { name, value }) fun _ => rfl

/-- Parameters, in the order in which they are kept. -/
def Parameters.format : Format Parameters :=
  (Format.text.list.pair NamedValue.format.list).via (fun p => (p.indexed, p.named))
    (fun (indexed, named) => some { indexed, named }) fun _ => rfl

namespace Page

/-- The fields of a page that are numbers or truth values. -/
def markFormat : Format (PageId × UInt32 × Bool × Bool × Bool) :=
  Format.word.pair (Format.word.pair (Format.flag.pair (Format.flag.pair .flag)))

/-- A page with all its fields. -/
def format : Format Page :=
  (markFormat.pair (Format.text.pair (Parameters.format.pair Format.byte.list))).via
    (fun p => ((p.id, p.renderCount, p.stateless, p.bookmarkable, p.frozen), p.pageClass,
      p.parameters, p.contents))
    (fun ((id, renderCount, stateless, bookmarkable, frozen), pageClass, parameters, contents) =>
      some { id, renderCount, stateless, bookmarkable, frozen, pageClass, parameters, contents })
    fun _ => rfl

/-- The bytes of a page. -/
def toBytes (p : Page) : List UInt8 :=
  format.write p

/-- The page of these bytes. -/
def ofBytes? (bytes : List UInt8) : Option Page :=
  match format.read bytes with
  | some (page, []) => some page
  | _ => none

theorem ofBytes?_toBytes (p : Page) : ofBytes? p.toBytes = some p := by
  have h := format.read_write p []
  rw [List.append_nil] at h
  rw [ofBytes?, toBytes, h]

end Page

end StatefulPages
