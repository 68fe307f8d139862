import PaneLayout.Client

set_option autoImplicit false

/-!
# Journals

A client that keeps a journal of its calls and can answer some of them itself.

Calls are counted by method. A stand-in names one call by its method and number; that call never
reaches the client behind the journal.
-/

namespace PaneLayout

inductive Method where
  | createWidget | applyMutations | fetchWidget | loadLayout | listColumns | summarySource
deriving DecidableEq, Inhabited

def Method.text : Method → String
  | createWidget => "create_widget"
  | applyMutations => "apply_mutations"
  | fetchWidget => "fetch_widget"
  | loadLayout => "load_layout"
  | listColumns => "list_columns"
  | summarySource => "summary_source"

def Method.all : List Method :=
  [createWidget, applyMutations, fetchWidget, loadLayout, listColumns, summarySource]

/-- What a call answers in place of the client, by the method it stands in for. -/
inductive Answer (α : Type) where
  | fault (f : Fault)
  | created (w : CreatedWidget)
  | applied
  | widget (w : Option WidgetInfo)
  | layout (n : Option (Native α SectionId))
  | columns (cs : List ColumnInfo)
  | source (t : Option TableRef)

structure StandIn (α : Type) where
  method : Method
  /-- Counted from zero. -/
  call : Nat
  answer : Answer α

structure Journal (α σ : Type) where
  inner : σ
  standIns : List (StandIn α)
  calls : List Method
  /-- Newest first. -/
  lines : List String

namespace Journal

variable {α σ β : Type}

def start (s : σ) (standIns : List (StandIn α)) : Journal α σ := ⟨s, standIns, [], []⟩

/-- The journal since the last time it was taken. -/
def takeLines (j : Journal α σ) : List String × Journal α σ :=
  (j.lines.reverse, { j with lines := [] })

def record (m : Method) (line : String) (j : Journal α σ) : Journal α σ :=
  { j with calls := m :: j.calls, lines := line :: j.lines }

/-- The answer that stands in for the next call of a method. -/
def standIn? (j : Journal α σ) (m : Method) : Option (Answer α) :=
  (j.standIns.find? fun s => s.method = m && s.call == j.calls.count m).map (·.answer)

/-- Writes a line, then lets the stand-in answer or passes the call on. -/
def through (m : Method) (line : String) (read? : Answer α → Option β) (call : σ → Reply σ β)
    (j : Journal α σ) : Reply (Journal α σ) β :=
  let answer := j.standIn? m
  let j := j.record m line
  match answer with
  | some (.fault f) => (.error f, j)
  | some a => match read? a with
    | some b => (.ok b, j)
    | none => forward j
  | none => forward j
where
  forward (j : Journal α σ) : Reply (Journal α σ) β :=
    let (r, s) := call j.inner
    (r, { j with inner := s })

def createLine (t : TableRef) (type : WidgetType) (view : Option ViewRef) : String :=
  "create_widget " ++ t.text ++ " " ++ type.nativeName ++ " "
    ++ match view with
      | some v => v.text
      | none => "-"

def client (inner : Client α σ) : Client α (Journal α σ) where
  createWidget t type view :=
    through .createWidget (createLine t type view)
      (fun | .created w => some w | _ => none) (inner.createWidget t type view)
  applyMutations ms :=
    through .applyMutations ("apply_mutations " ++ decimal ms.length)
      (fun | .applied => some () | _ => none) (inner.applyMutations ms)
  fetchWidget id :=
    through .fetchWidget ("fetch_widget " ++ id.text)
      (fun | .widget w => some w | _ => none) (inner.fetchWidget id)
  loadLayout view :=
    through .loadLayout ("load_layout " ++ view.text)
      (fun | .layout n => some n | _ => none) (inner.loadLayout view)
  listColumns t :=
    through .listColumns ("list_columns " ++ t.text)
      (fun | .columns cs => some cs | _ => none) (inner.listColumns t)
  summarySource t :=
    through .summarySource ("summary_source " ++ t.text)
      (fun | .source t => some t | _ => none) (inner.summarySource t)

end Journal
end PaneLayout
