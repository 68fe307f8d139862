import PaneLayout.Document.Basic

set_option autoImplicit false

/-!
# Fixtures

Descriptions of documents, and the documents they describe.

A summary table names its source, which must be listed before it; a widget must be of a table that
is listed.
-/

namespace PaneLayout

structure ColumnFixture where
  id : String
  type : String
deriving DecidableEq, Inhabited

structure TableFixture where
  name : String
  columns : List ColumnFixture
  summaryOf : Option String
deriving DecidableEq, Inhabited

structure PageFixture (α : Type) where
  view : ViewRef
  layout : Option (Native α SectionId)
  widgets : List WidgetInfo

structure DocumentFixture (α : Type) where
  tables : List TableFixture
  pages : List (PageFixture α)

inductive FixtureError where
  | unreadable
  | unknownSource (table source : String)
  | unknownTable (id : SectionId) (table : TableRef)
deriving DecidableEq, Inhabited

def FixtureError.message : FixtureError → String
  | unreadable => "Failed to parse document fixture"
  | unknownSource table source =>
    "Table '" ++ table ++ "' summarises unknown table '" ++ source ++ "' (list sources first)"
  | unknownTable id table => "Widget " ++ id.text ++ " uses unknown table " ++ table.text

namespace Document

variable {α : Type}

def addTableFixture (d : Document α) (t : TableFixture) : Except FixtureError (Document α) :=
  let columns := t.columns.map fun c => (c.id, c.type)
  match t.summaryOf with
  | none => .ok (d.addTable t.name columns none)
  | some source => match d.tableRef? source with
    | some ref => .ok (d.addTable t.name columns (some ref))
    | none => .error (.unknownSource t.name source)

def addWidgetFixture (view : ViewRef) (d : Document α) (w : WidgetInfo) :
    Except FixtureError (Document α) :=
  if d.tables.contains w.table then .ok (d.addWidget view w)
  else .error (.unknownTable w.id w.table)

def addPageFixture (d : Document α) (p : PageFixture α) : Except FixtureError (Document α) :=
  p.widgets.foldlM (addWidgetFixture p.view) (d.setPage p.view p.layout)

def ofFixture (f : DocumentFixture α) : Except FixtureError (Document α) := do
  let d ← f.tables.foldlM addTableFixture empty
  f.pages.foldlM addPageFixture d

end Document
end PaneLayout
