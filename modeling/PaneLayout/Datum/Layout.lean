import PaneLayout.Datum.Widget
import PaneLayout.Layout.Basic
import PaneLayout.Layout.Request
import PaneLayout.Layout.Violation
import PaneLayout.Scalar.Double

set_option autoImplicit false

/-!
# Links, layouts and requests as data

The target of a link is a number or a text, and a layout is a union that nests.
-/

namespace PaneLayout

namespace LinkTarget

def datum : LinkTarget → Datum
  | id i => i.datum
  | name key => .text key

/-- A number is a section and a text a name. -/
def ofDatum? (d : Datum) : Option LinkTarget :=
  match SectionId.ofDatum? d with
  | some i => some (id i)
  | none => d.text?.map name

end LinkTarget

namespace LinkKind

def all : List LinkKind := [childOf, syncedWith, filteredBy, listedIn, matchedBy, breakdownOf]
def datum (k : LinkKind) : Datum := .text k.text
def ofDatum? (mode : Mode) (d : Datum) : Option LinkKind := d.oneOf? mode all text

end LinkKind

namespace Link

def datum (l : Link) : Datum :=
  .record ([("kind", l.kind.datum), ("from", l.source.datum)]
    ++ Datum.optionalField "col" (l.sourceCol.map .text)
    ++ Datum.optionalField "to" (l.targetCol.map .text))

/-- How a link of one kind is read: its fields are its source and then its columns. -/
def ofBody? (kind : LinkKind) (body : Datum) : Option Link :=
  let plain (f : LinkTarget → Link) : Option Link := do
    let fs ← Fields.ofDatum? ["from"] body
    return f (← fs.required 0 LinkTarget.ofDatum?)
  let column (f : LinkTarget → String → Link) : Option Link := do
    let fs ← Fields.ofDatum? ["from", "col"] body
    return f (← fs.required 0 LinkTarget.ofDatum?) (← fs.required 1 Datum.text?)
  match kind with
  | .childOf => plain childOf
  | .syncedWith => plain syncedWith
  | .filteredBy => column filteredBy
  | .listedIn => column listedIn
  | .matchedBy => do
    let fs ← Fields.ofDatum? ["from", "col", "to"] body
    return matchedBy (← fs.required 0 LinkTarget.ofDatum?) (← fs.required 1 Datum.text?)
      (← fs.required 2 Datum.text?)
  | .breakdownOf => plain breakdownOf

def ofDatum? (mode : Mode) (d : Datum) : Option Link := do
  let (i, body) ← d.tagged? mode "kind" (LinkKind.all.map LinkKind.text)
  ofBody? (← LinkKind.all[i]?) body

end Link

namespace PaneInfo

def fields (i : PaneInfo) : List (String × Datum) :=
  Datum.optionalField "name" (i.name.map .text)
    ++ Datum.optionalField "title" (i.title.map .text)
    ++ Datum.optionalField "description" (i.description.map .text)
    ++ Datum.optionalField "link" (i.link.map Link.datum)

def fieldNames : List String := ["name", "title", "description", "link"]

/-- The four fields from position `k` on. -/
def ofFields? (fs : Fields) (k : Nat) : Option PaneInfo := do
  return ⟨← fs.optional k Datum.text?, ← fs.optional (k + 1) Datum.text?,
    ← fs.optional (k + 2) Datum.text?, ← fs.optional (k + 3) (Link.ofDatum? .gathered)⟩

end PaneInfo

def Axis.splitKind : Axis → String
  | horizontal => "ColSplit"
  | vertical => "RowSplit"

def Pane.datum : Pane → Datum
  | leaf id => .record [("kind", .text "Leaf"), ("section", id.datum)]
  | new table type i =>
    .record ([("kind", .text "NewPane"), ("table", .text table), ("widget_type", type.datum)]
      ++ i.fields)
  | existing id i => .record ([("kind", .text "ExistingPane"), ("section", id.datum)] ++ i.fields)

namespace Layout

section
variable {α : Type} [Scalar α]

mutual

def datum : Layout α → Datum
  | pane p => p.datum
  | split axis cs ws =>
    .record ([("kind", .text axis.splitKind), ("children", .list (dataOf cs))]
      ++ Datum.optionalField "weights" (ws.map (Datum.ofList Scalar.datum)))

def dataOf : List (Layout α) → List Datum
  | [] => []
  | c :: cs => datum c :: dataOf cs

end
end

def kinds : List String := ["Leaf", "NewPane", "ExistingPane", "ColSplit", "RowSplit"]

/-- One level of layout, given how its children are read. -/
def ofBody? (child : Datum → Option (Layout Float)) (kind : Nat) (body : Datum) :
    Option (Layout Float) :=
  let splitAlong (axis : Axis) : Option (Layout Float) := do
    let fs ← Fields.ofDatum? ["children", "weights"] body
    return split axis (← fs.required 0 (Datum.listOf? child))
      (← fs.optional 1 (Datum.listOf? Datum.float?))
  match kind with
  | 0 => do
    let fs ← Fields.ofDatum? ["section"] body
    return pane (.leaf (← fs.required 0 SectionId.ofDatum?))
  | 1 => do
    let fs ← Fields.ofDatum? (["table", "widget_type"] ++ PaneInfo.fieldNames) body
    return pane (.new (← fs.required 0 Datum.text?)
      (← fs.required 1 (WidgetType.ofDatum? .gathered)) (← PaneInfo.ofFields? fs 2))
  | 2 => do
    let fs ← Fields.ofDatum? (["section"] ++ PaneInfo.fieldNames) body
    return pane (.existing (← fs.required 0 SectionId.ofDatum?) (← PaneInfo.ofFields? fs 1))
  | 3 => splitAlong .horizontal
  | 4 => splitAlong .vertical
  | _ => none

/-- `levels` bounds the nesting that is read. -/
def ofDatumWithin? : Nat → Mode → Datum → Option (Layout Float)
  | 0, _, _ => none
  | levels + 1, mode, d => do
    let (kind, body) ← d.tagged? mode "kind" kinds
    ofBody? (ofDatumWithin? levels .gathered) kind body

def ofDatum? (mode : Mode) (d : Datum) : Option (Layout Float) := ofDatumWithin? d.depth mode d

end Layout

namespace LayoutRequest

def datum {α : Type} [Scalar α] (r : LayoutRequest α) : Datum :=
  .record (Datum.optionalField "view" (r.view.map ViewRef.datum)
    ++ [("tables", TableMap.datum r.tables)]
    ++ Datum.optionalField "layout" (r.layout.map Layout.datum))

def fieldNames : List String := ["view", "tables", "layout"]

def ofDatum? (d : Datum) : Option (LayoutRequest Float) := do
  let fs ← Fields.ofDatum? fieldNames d
  return ⟨← fs.optional 0 ViewRef.ofDatum?, ← fs.defaulted 1 TableMap.ofDatum? ∅,
    ← fs.optional 2 (Layout.ofDatum? .direct)⟩

end LayoutRequest

namespace Issue

def datum (i : Issue) : Datum := .record [("rule", .text i.rule), ("message", .text i.message)]

def ofDatum? (d : Datum) : Option Issue := do
  let fs ← Fields.ofDatum? ["rule", "message"] d
  return ⟨← fs.required 0 Datum.text?, ← fs.required 1 Datum.text?⟩

end Issue
end PaneLayout
