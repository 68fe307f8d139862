import PaneLayout.Config
import PaneLayout.Native.Basic
import PaneLayout.TableMap

set_option autoImplicit false

/-!
# Recovered layouts

From a stored page back to a declarative layout.

The stored tuple says less than the link did: a bare cursor may be `ChildOf`, `SyncedWith` or
`BreakdownOf`, and one column may be `FilteredBy` or `ListedIn`. The link that is recovered is a
guess; the tuple and the other candidates are given beside it.
-/

namespace PaneLayout

/-- What is known of the document when a page is read back. -/
structure Schema where
  tables : TableMap
  columns : SortedMap TableRef (List ColumnInfo)
  /-- From a summary table to the table it summarises. -/
  summaryOf : SortedMap TableRef TableRef
  /-- Tables of link sources that are not on the page. -/
  sectionTables : SortedMap SectionId TableRef

namespace Schema

def empty : Schema := ⟨∅, ∅, ∅, ∅⟩

def column? (s : Schema) (t : TableRef) (c : ColumnRef) : Option ColumnInfo :=
  (s.columns.get? t).bind fun cols => cols.find? fun info => info.ref == c

/-- A column that the schema lacks is shown by its number. -/
def columnName (s : Schema) (t : Option TableRef) (c : ColumnRef) : String :=
  if !c.isSet then rowIdColumn
  else match t.bind fun t => s.column? t c with
    | some info => info.id
    | none => "#" ++ decimal c.toNat

end Schema

structure WidgetSummary where
  id : SectionId
  table : String
  type : WidgetType
  title : Option String
deriving DecidableEq, Inhabited

structure RecoveredLink where
  /-- The section that owns the link. -/
  id : SectionId
  raw : LinkTuple
  guess : Link
  /-- Other kinds that are stored as the same tuple. -/
  alternatives : List LinkKind
deriving DecidableEq, Inhabited

structure Decompiled (α : Type) where
  layout : Layout α
  widgets : List WidgetSummary
  links : List RecoveredLink

abbrev WidgetMap := SortedMap SectionId WidgetInfo

namespace Decompile

def sourceTable (ws : WidgetMap) (s : Schema) (id : SectionId) : Option TableRef :=
  (ws.get? id).map (·.table) <|> s.sectionTables.get? id

/-- The guess and the other candidates for a tuple. -/
def candidates (s : Schema) (hints : Bool) (owner : TableRef) (source : Option TableRef)
    (raw : LinkTuple) : Link × List LinkKind :=
  let from_ : LinkTarget := .id raw.source
  match raw.sourceCol.isSet, raw.targetCol.isSet with
  | false, false =>
    if hints && source.isSome && s.summaryOf.get? owner == source then
      (.breakdownOf from_, [.syncedWith, .childOf])
    else (.syncedWith from_, [.childOf, .breakdownOf])
  | true, false =>
    let col := s.columnName source raw.sourceCol
    let isList := ((source.bind fun t => s.column? t raw.sourceCol).map (·.isListValued)).getD false
    if hints && isList then (.listedIn from_ col, [.filteredBy])
    else (.filteredBy from_ col, [.listedIn])
  | _, true =>
    (.matchedBy from_ (s.columnName source raw.sourceCol) (s.columnName (some owner) raw.targetCol),
      [])

def recover (ws : WidgetMap) (s : Schema) (hints : Bool) (w : WidgetInfo) (raw : LinkTuple) :
    RecoveredLink :=
  let (guess, alternatives) := candidates s hints w.table (sourceTable ws s raw.source) raw
  ⟨w.id, raw, guess, alternatives⟩

def summary (s : Schema) (id : SectionId) (w : WidgetInfo) : WidgetSummary :=
  ⟨id, TableMap.displayName s.tables w.table, w.type, w.title⟩

/-- What is known of one leaf: its pane, its summary, and its link. -/
structure LeafReading where
  pane : Pane
  summaries : List WidgetSummary
  links : List RecoveredLink

def readLeaf (ws : WidgetMap) (s : Schema) (o : DecompileOptions) (id : SectionId) : LeafReading :=
  match ws.get? id with
  | none => ⟨.leaf id, [], []⟩
  | some w => match w.link with
    | none => ⟨.leaf id, [summary s id w], []⟩
    | some raw =>
      let link := recover ws s o.schemaHints w raw
      ⟨if o.reconstructLinks then
          .existing id ⟨none, w.title, w.description, some link.guess⟩
        else .leaf id,
        [summary s id w], [link]⟩

section
variable {α : Type} [Scalar α]

/-- Weights that amount to an even split are dropped. -/
def compressWeights (ws : List α) : Option (List α) :=
  let even : α := Scalar.one / Scalar.ofNat (max ws.length 1)
  if ws.all fun w => Scalar.lt (Scalar.abs (w - even)) Scalar.tolerance then none else some ws

def joined (axis : Axis) (ratio : α) (first : Layout α) (children : List (Layout α))
    (shares : List α) : Layout α :=
  .split axis (first :: children)
    (compressWeights (ratio :: shares.map fun w => w * (Scalar.one - ratio)))

/-- One split over what its halves became. A second half along the same axis may be taken in. -/
def join (flatten : Bool) (axis : Axis) (ratio : α) (first second : Layout α) : Layout α :=
  let plain : Layout α :=
    .split axis [first, second] (compressWeights [ratio, Scalar.one - ratio])
  match second with
  | .split axis' cs _ =>
    if flatten && axis = axis' then joined axis ratio first cs second.shares else plain
  | .pane _ => plain

/-- The layout over what each leaf became. -/
def layoutWith (flatten : Bool) (leaf : SectionId → Pane) : Native α SectionId → Layout α
  | .leaf id => .pane (leaf id)
  | .split axis ratio a b =>
    join flatten axis ratio (layoutWith flatten leaf a) (layoutWith flatten leaf b)

end
end Decompile

def decompile {α : Type} [Scalar α] (native : Native α SectionId) (ws : WidgetMap) (s : Schema)
    (o : DecompileOptions) : Decompiled α :=
  let read := Decompile.readLeaf ws s o
  ⟨Decompile.layoutWith o.flattenChains (fun id => (read id).pane) native,
    native.leaves.flatMap fun id => (read id).summaries,
    native.leaves.flatMap fun id => (read id).links⟩

/-- The part of the page that each leaf takes up, from left to right. -/
def Decompiled.leafAreas {α : Type} [Scalar α] (d : Decompiled α) : List α := d.layout.paneAreas

end PaneLayout
