import PaneLayout.Client
import PaneLayout.TableMap

set_option autoImplicit false

/-!
# Documents

A document held in memory: its tables, its pages and the widgets on them.

References are handed out by counters, tables and columns from 1 in the order in which they are
added, sections and pages past the greatest in use. A creation that would take a counter past its
end does not return. One creation and one mutation can be made to fail.
-/

namespace PaneLayout

structure Table where
  name : String
  columns : List ColumnInfo
  summaryOf : Option TableRef
deriving DecidableEq, Inhabited

structure Document (α : Type) where
  tables : SortedMap TableRef Table
  widgets : SortedMap SectionId WidgetInfo
  widgetViews : SortedMap SectionId ViewRef
  /-- Every page; one without a layout shows nothing yet. -/
  pages : SortedMap ViewRef (Option (Native α SectionId))
  lastTable : UInt32
  lastColumn : UInt32
  lastSection : UInt32
  lastView : UInt32
  failCreateAt : Option Nat
  rejectMutationAt : Option Nat
  createCalls : Nat
  applyCalls : Nat
  columnCalls : Nat
  /-- Set by a call that did not return. The document is of no use afterwards. -/
  overflowed : Bool

namespace Document

variable {α : Type}

def empty : Document α := ⟨∅, ∅, ∅, ∅, 0, 0, 0, 0, none, none, 0, 0, 0, false⟩

/-! ## Looking things up -/

/-- The first table of that name. -/
def tableRef? (d : Document α) (name : String) : Option TableRef :=
  (d.tables.toList.find? fun e => e.2.name == name).map (·.1)

/-- Every table by name, as a caller would pass it in. -/
def tableMap (d : Document α) : TableMap :=
  SortedMap.ofList (d.tables.toList.map fun e => (e.2.name, e.1))

def columnRef? (d : Document α) (table column : String) : Option ColumnRef := do
  let t ← d.tables.get? (← d.tableRef? table)
  return (← t.columns.find? fun c => c.id == column).ref

def widget? (d : Document α) (id : SectionId) : Option WidgetInfo := d.widgets.get? id

def layout? (d : Document α) (view : ViewRef) : Option (Native α SectionId) :=
  (d.pages.get? view).join

/-! ## Building -/

/-- Numbers the columns of a new table on from `last`. -/
def numberColumns (last : UInt32) : List (String × String) → List ColumnInfo × UInt32
  | [] => ([], last)
  | (id, type) :: rest =>
    let (cols, final) := numberColumns (last + 1) rest
    (⟨⟨last + 1⟩, id, type⟩ :: cols, final)

def addTable (d : Document α) (name : String) (columns : List (String × String))
    (summaryOf : Option TableRef) : Document α :=
  let (cols, last) := numberColumns d.lastColumn columns
  { d with
    tables := d.tables.insert ⟨d.lastTable + 1⟩ ⟨name, cols, summaryOf⟩
    lastTable := d.lastTable + 1
    lastColumn := last }

/-- A summary of a table that must be there already; without it the new table summarises nothing. -/
def addSummaryTable (d : Document α) (name source : String) (columns : List (String × String)) :
    Document α :=
  d.addTable name columns (d.tableRef? source)

/-- Puts a widget on a page, which is opened if need be. -/
def addWidget (d : Document α) (view : ViewRef) (w : WidgetInfo) : Document α :=
  { d with
    lastSection := max d.lastSection w.id.raw
    lastView := max d.lastView view.raw
    pages := d.pages.insertNew view none
    widgetViews := d.widgetViews.insert w.id view
    widgets := d.widgets.insert w.id w }

def setPage (d : Document α) (view : ViewRef) (layout : Option (Native α SectionId)) : Document α :=
  { d with lastView := max d.lastView view.raw, pages := d.pages.insert view layout }

/-! ## Mutations -/

/-- A page must exist, and everything shown on it must be on it. -/
def applyLayout (d : Document α) (view : ViewRef) (layout : Native α SectionId) :
    Except String (Document α) :=
  if !d.pages.contains view then .error ("Unknown view " ++ view.text)
  else match layout.leaves.find? fun id => d.widgetViews.get? id != some view with
    | some id => .error ("Section " ++ id.text ++ " is not on view " ++ view.text)
    | none => .ok { d with pages := d.pages.insert view (some layout) }

def updateWidget (d : Document α) (id : SectionId) (f : WidgetInfo → WidgetInfo) :
    Except String (Document α) :=
  match d.widgets.get? id with
  | some w => .ok { d with widgets := d.widgets.insert id (f w) }
  | none => .error ("Unknown section " ++ id.text)

def applyOne (d : Document α) : Mutation α → Except String (Document α)
  | .setLayout view layout => d.applyLayout view layout
  | .setLink id t =>
    if d.widgets.contains t.source then d.updateWidget id (·.withLink (some t))
    else .error ("Unknown link source " ++ t.source.text)
  | .setSectionInfo id title description => d.updateWidget id (·.withTexts title description)

/-- Applies a bundle from position `i` up to the first refusal, injected or real. -/
def applyFrom (d : Document α) (reject : Option Nat) (i : Nat) :
    List (Mutation α) → Reply (Document α) Unit
  | [] => (.ok (), d)
  | m :: ms =>
    if reject = some i then (.error (.rejected i "Injected rejection"), d)
    else match d.applyOne m with
      | .ok d => applyFrom d reject (i + 1) ms
      | .error reason => (.error (.rejected i reason), d)

/-! ## Calls -/

/-- An injected rejection is used up by the next bundle, whatever becomes of it. -/
def applyMutations (ms : List (Mutation α)) (d : Document α) : Reply (Document α) Unit :=
  applyFrom { d with applyCalls := d.applyCalls + 1, rejectMutationAt := none } d.rejectMutationAt
    0 ms

/-- A page that shows nothing yet shows its first new widget. -/
def placeNew (d : Document α) (view : ViewRef) (table : TableRef) (type : WidgetType) :
    CreatedWidget × Document α :=
  let id : SectionId := ⟨d.lastSection + 1⟩
  let d := { d with lastSection := d.lastSection + 1 }.addWidget view (.create id table type)
  let shown := (d.layout? view).getD (.leaf id)
  (⟨id, view⟩, { d with pages := d.pages.insert view (some shown) })

/-- Whether a counter has handed out its last number. -/
def isSpent (counter : UInt32) : Bool := counter.toNat + 1 == UInt32.size

/-- What stands in for the answer of a creation that runs out of numbers, and does not return. -/
def overflow (d : Document α) : Reply (Document α) CreatedWidget :=
  (.error (.plain "attempt to add with overflow"), { d with overflowed := true })

def createWidget (table : TableRef) (type : WidgetType) (view : Option ViewRef) (d : Document α) :
    Reply (Document α) CreatedWidget :=
  let call := d.createCalls
  let d := { d with createCalls := call + 1 }
  if d.failCreateAt = some call then
    let message := "Injected failure creating " ++ type.nativeName ++ " widget on " ++ table.text
    (.error (.plain message), d)
  else if !d.tables.contains table then (.error (.plain ("Unknown table " ++ table.text)), d)
  else match view with
    | some v =>
      if !d.pages.contains v then (.error (.plain ("Unknown view " ++ v.text)), d)
      else if isSpent d.lastSection then d.overflow
      else
        let (w, d) := d.placeNew v table type
        (.ok w, d)
    | none =>
      if isSpent d.lastView || isSpent d.lastSection then d.overflow
      else
        let (w, d) := { d with lastView := d.lastView + 1 }.placeNew ⟨d.lastView + 1⟩ table type
        (.ok w, d)

def tableCall {β : Type} (f : Table → β) (t : TableRef) (d : Document α) : Except Fault β :=
  match d.tables.get? t with
  | some table => .ok (f table)
  | none => .error (.plain ("Unknown table " ++ t.text))

def client : Client α (Document α) where
  createWidget := createWidget
  applyMutations := applyMutations
  fetchWidget id d := (.ok (d.widget? id), d)
  loadLayout view d := (.ok (d.layout? view), d)
  listColumns t d := (d.tableCall (·.columns) t, { d with columnCalls := d.columnCalls + 1 })
  summarySource t d := (d.tableCall (·.summaryOf) t, d)

end Document
end PaneLayout
