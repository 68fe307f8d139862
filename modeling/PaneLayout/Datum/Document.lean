import PaneLayout.Datum.Native
import PaneLayout.Document.Fixture
import PaneLayout.Json.Read

set_option autoImplicit false

/-!
# Fixtures as data

The text of a fixture, in JSON, describes a whole document.
-/

namespace PaneLayout

namespace ColumnFixture

def datum (c : ColumnFixture) : Datum := .record [("id", .text c.id), ("type", .text c.type)]

/-- A column whose type is not given holds text. -/
def ofDatum? (d : Datum) : Option ColumnFixture := do
  let fs ← Fields.ofDatum? ["id", "type"] d
  return ⟨← fs.required 0 Datum.text?, ← fs.defaulted 1 Datum.text? "Text"⟩

end ColumnFixture

namespace TableFixture

def datum (t : TableFixture) : Datum :=
  .record ([("name", .text t.name), ("columns", .ofList ColumnFixture.datum t.columns)]
    ++ Datum.optionalField "summary_of" (t.summaryOf.map .text))

def ofDatum? (d : Datum) : Option TableFixture := do
  let fs ← Fields.ofDatum? ["name", "columns", "summary_of"] d
  return ⟨← fs.required 0 Datum.text?,
    ← fs.defaulted 1 (Datum.listOf? ColumnFixture.ofDatum?) [], ← fs.optional 2 Datum.text?⟩

end TableFixture

namespace PageFixture

def datum {α : Type} [Scalar α] (p : PageFixture α) : Datum :=
  .record ([("view", p.view.datum)] ++ Datum.optionalField "layout" (p.layout.map Native.datum)
    ++ [("widgets", .ofList WidgetInfo.datum p.widgets)])

def ofDatum? (d : Datum) : Option (PageFixture Float) := do
  let fs ← Fields.ofDatum? ["view", "layout", "widgets"] d
  return ⟨← fs.required 0 ViewRef.ofDatum?, ← fs.optional 1 (Native.ofDatum? .direct),
    ← fs.defaulted 2 (Datum.listOf? (WidgetInfo.ofDatum? .direct)) []⟩

end PageFixture

namespace DocumentFixture

def datum {α : Type} [Scalar α] (f : DocumentFixture α) : Datum :=
  .record [("tables", .ofList TableFixture.datum f.tables),
    ("pages", .ofList PageFixture.datum f.pages)]

def ofDatum? (d : Datum) : Option (DocumentFixture Float) := do
  let fs ← Fields.ofDatum? ["tables", "pages"] d
  return ⟨← fs.defaulted 0 (Datum.listOf? TableFixture.ofDatum?) [],
    ← fs.defaulted 1 (Datum.listOf? PageFixture.ofDatum?) []⟩

end DocumentFixture

/-- The document that the JSON text of a fixture describes. -/
def Document.read (s : String) : Except FixtureError (Document Float) :=
  match (Json.read? s).bind DocumentFixture.ofDatum? with
  | some f => ofFixture f
  | none => .error .unreadable

end PaneLayout
