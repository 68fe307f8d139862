import PaneLayout.Datum.Fields
import PaneLayout.TableMap
import PaneLayout.Widget

set_option autoImplicit false

/-!
# Identifiers, widgets, columns and table maps as data

An identifier is written as its number, which has to fit in 32 bits to be read.
-/

namespace PaneLayout

def SectionId.datum (id : SectionId) : Datum := .ofWord id.raw
def SectionId.ofDatum? (d : Datum) : Option SectionId := d.word?.map (⟨·⟩)

def TableRef.datum (t : TableRef) : Datum := .ofWord t.raw
def TableRef.ofDatum? (d : Datum) : Option TableRef := d.word?.map (⟨·⟩)

def ViewRef.datum (v : ViewRef) : Datum := .ofWord v.raw
def ViewRef.ofDatum? (d : Datum) : Option ViewRef := d.word?.map (⟨·⟩)

def ColumnRef.datum (c : ColumnRef) : Datum := .ofWord c.raw
def ColumnRef.ofDatum? (d : Datum) : Option ColumnRef := d.word?.map (⟨·⟩)

namespace WidgetType

def key : WidgetType → String
  | grid => "grid"
  | card => "card"
  | cardList => "card_list"
  | chart => "chart"
  | form => "form"
  | custom => "custom"

def datum (t : WidgetType) : Datum := .text t.key
def ofDatum? (mode : Mode) (d : Datum) : Option WidgetType := d.oneOf? mode all key

end WidgetType

namespace ColumnInfo

def datum (c : ColumnInfo) : Datum :=
  .record [("col_ref", c.ref.datum), ("col_id", .text c.id), ("col_type", .text c.type)]

def ofDatum? (d : Datum) : Option ColumnInfo := do
  let fs ← Fields.ofDatum? ["col_ref", "col_id", "col_type"] d
  return ⟨← fs.required 0 ColumnRef.ofDatum?, ← fs.required 1 Datum.text?,
    ← fs.required 2 Datum.text?⟩

end ColumnInfo

namespace LinkTuple

def datum (t : LinkTuple) : Datum :=
  .record [("src_section", t.source.datum), ("src_col", t.sourceCol.datum),
    ("target_col", t.targetCol.datum)]

def ofDatum? (d : Datum) : Option LinkTuple := do
  let fs ← Fields.ofDatum? ["src_section", "src_col", "target_col"] d
  return ⟨← fs.required 0 SectionId.ofDatum?, ← fs.required 1 ColumnRef.ofDatum?,
    ← fs.required 2 ColumnRef.ofDatum?⟩

end LinkTuple

namespace WidgetInfo

def datum (w : WidgetInfo) : Datum :=
  .record ([("section_id", w.id.datum), ("table_ref", w.table.datum), ("widget_type", w.type.datum)]
    ++ Datum.optionalField "title" (w.title.map .text)
    ++ Datum.optionalField "description" (w.description.map .text)
    ++ [("link_src_section_ref", .ofWord w.linkSource),
      ("link_src_col_ref", .ofWord w.linkSourceCol),
      ("link_target_col_ref", .ofWord w.linkTargetCol)])

def fieldNames : List String :=
  ["section_id", "table_ref", "widget_type", "title", "description", "link_src_section_ref",
    "link_src_col_ref", "link_target_col_ref"]

/-- The link fields may be left out, and are zero then. -/
def ofDatum? (mode : Mode) (d : Datum) : Option WidgetInfo := do
  let fs ← Fields.ofDatum? fieldNames d
  return ⟨← fs.required 0 SectionId.ofDatum?, ← fs.required 1 TableRef.ofDatum?,
    ← fs.required 2 (WidgetType.ofDatum? mode), ← fs.optional 3 Datum.text?,
    ← fs.optional 4 Datum.text?, ← fs.defaulted 5 Datum.word? 0, ← fs.defaulted 6 Datum.word? 0,
    ← fs.defaulted 7 Datum.word? 0⟩

end WidgetInfo

namespace TableMap

def datum (tables : TableMap) : Datum :=
  .record (tables.toList.map fun e => (e.1, e.2.datum))

def entry? (e : Datum × Datum) : Option (String × TableRef) := do
  return (← e.1.text?, ← TableRef.ofDatum? e.2)

/-- Of a name that is repeated the last table counts. -/
def ofDatum? : Datum → Option TableMap
  | .map entries => (entries.mapM entry?).map SortedMap.ofList
  | _ => none

end TableMap
end PaneLayout
