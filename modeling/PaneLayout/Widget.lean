import PaneLayout.Ident

set_option autoImplicit false

/-!
# Widgets, columns and stored links

Widgets as a document stores them, the columns of its tables, and the stored form of a link.

A link is kept on the widget that owns it as three numbers. `WidgetInfo.link` reads them back,
and `link_withLink` says that what is written is what is read whenever the source is a section.
-/

namespace PaneLayout

inductive WidgetType where
  | grid | card | cardList | chart | form | custom
deriving DecidableEq, Inhabited

namespace WidgetType

def all : List WidgetType := [grid, card, cardList, chart, form, custom]

/-- The name a document gives to this type of section. -/
def nativeName : WidgetType → String
  | grid => "record"
  | card => "single"
  | cardList => "detail"
  | chart => "chart"
  | form => "form"
  | custom => "custom"

def ofNativeName? (name : String) : Option WidgetType := all.find? fun t => t.nativeName == name

theorem ofNativeName?_nativeName (t : WidgetType) : ofNativeName? t.nativeName = some t := by
  cases t <;> decide

end WidgetType

/-- The column id under which every table offers the identity of its rows. -/
def rowIdColumn : String := "id"

structure ColumnInfo where
  ref : ColumnRef
  id : String
  type : String
deriving DecidableEq, Inhabited

namespace ColumnInfo

def rowId : ColumnInfo := ⟨.unset, rowIdColumn, "Id"⟩

def isListValued (c : ColumnInfo) : Bool :=
  "RefList:".toList.isPrefixOf c.type.toList || c.type == "ChoiceList"

end ColumnInfo

/-- A stored link: the source section, its column, and the column of the owner. -/
structure LinkTuple where
  source : SectionId
  sourceCol : ColumnRef
  targetCol : ColumnRef
deriving DecidableEq, Inhabited

namespace LinkTuple

def cursor (source : SectionId) : LinkTuple := ⟨source, .unset, .unset⟩

def text (t : LinkTuple) : String :=
  "(" ++ decimal t.source.toNat ++ ", " ++ decimal t.sourceCol.toNat ++ ", "
    ++ decimal t.targetCol.toNat ++ ")"

end LinkTuple

structure WidgetInfo where
  id : SectionId
  table : TableRef
  type : WidgetType
  title : Option String
  description : Option String
  linkSource : UInt32
  linkSourceCol : UInt32
  linkTargetCol : UInt32
deriving DecidableEq, Inhabited

namespace WidgetInfo

def create (id : SectionId) (table : TableRef) (type : WidgetType) : WidgetInfo :=
  ⟨id, table, type, none, none, 0, 0, 0⟩

/-- A widget whose source field is zero stores no link. -/
def link (w : WidgetInfo) : Option LinkTuple :=
  if w.linkSource = 0 then none else some ⟨⟨w.linkSource⟩, ⟨w.linkSourceCol⟩, ⟨w.linkTargetCol⟩⟩

def withLink (w : WidgetInfo) : Option LinkTuple → WidgetInfo
  | some t => { w with
      linkSource := t.source.raw, linkSourceCol := t.sourceCol.raw,
      linkTargetCol := t.targetCol.raw }
  | none => { w with linkSource := 0, linkSourceCol := 0, linkTargetCol := 0 }

/-- What is not given stays as it was. -/
def withTexts (w : WidgetInfo) (title description : Option String) : WidgetInfo :=
  { w with title := title <|> w.title, description := description <|> w.description }

theorem link_withLink (w : WidgetInfo) (t : LinkTuple) (h : t.source.isValid = true) :
    (w.withLink (some t)).link = some t := by
  have : t.source.raw ≠ 0 := by simpa [SectionId.isValid] using h
  simp [withLink, link, this]

@[simp] theorem link_withLink_none (w : WidgetInfo) : (w.withLink none).link = none := by
  simp [withLink, link]

@[simp] theorem link_withTexts (w : WidgetInfo) (t d : Option String) :
    (w.withTexts t d).link = w.link := rfl

end WidgetInfo
end PaneLayout
