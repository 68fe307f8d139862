import PaneLayout.Decompile
import PaneLayout.LinkCheck

set_option autoImplicit false

/-!
# Reading a page back as a layout

Asked for are the page, the widgets of its leaves, the widgets of link sources that are elsewhere,
and the columns and lineage of every table met on the way.
-/

namespace PaneLayout

namespace ReadBack

variable {α σ : Type}

abbrev ReadRun (σ : Type) := Run σ CompileError

def ask {β : Type} (step : FailedStep) (call : σ → Reply σ β) : ReadRun σ β :=
  Run.ofReply call fun f => .collaboratorFailure step f.message []

def fetchLeaves (client : Client α σ) : List SectionId → WidgetMap → ReadRun σ WidgetMap
  | [], ws => return ws
  | id :: ids, ws => do
    match ← ask (.fetchWidget id) (client.fetchWidget id) with
    | some w => fetchLeaves client ids (ws.insert id w)
    | none =>
      throw (.collaboratorFailure (.fetchWidget id) ("Section " ++ id.text ++ " not found") [])

/-- Tables of the sources that are not on the page. A source that is gone has none. -/
def fetchSources (client : Client α σ) (page : WidgetMap) :
    List WidgetInfo → SortedMap SectionId TableRef → ReadRun σ (SortedMap SectionId TableRef)
  | [], known => return known
  | w :: ws, known => do
    match w.link with
    | none => fetchSources client page ws known
    | some raw =>
      if page.contains raw.source || known.contains raw.source then
        fetchSources client page ws known
      else match ← ask (.fetchWidget raw.source) (client.fetchWidget raw.source) with
        | some source => fetchSources client page ws (known.insert raw.source source.table)
        | none => fetchSources client page ws known

def fetchSchema (client : Client α σ) : List TableRef → Schema → ReadRun σ Schema
  | [], s => return s
  | t :: ts, s => do
    let cols ← ask (.loadSchema t) (client.listColumns t)
    let source ← ask (.loadSchema t) (client.summarySource t)
    fetchSchema client ts { s with
      columns := s.columns.insert t cols
      summaryOf := match source with
        | some from_ => s.summaryOf.insert t from_
        | none => s.summaryOf }

/-- The tables of the widgets and of the sources, each once, in order. -/
def tablesMet (page : WidgetMap) (sources : SortedMap SectionId TableRef) : List TableRef :=
  (SortedMap.ofList ((page.values.map (·.table) ++ sources.values).map fun t => (t, ()))).keys

end ReadBack

open ReadBack

def readBackRun {α σ : Type} [Scalar α] (client : Client α σ) (o : DecompileOptions)
    (view : ViewRef) (tables : TableMap) : ReadRun σ (Decompiled α) := do
  let some native ← ask (.loadLayout view) (client.loadLayout view)
    | throw (.collaboratorFailure (.loadLayout view) ("View " ++ view.text ++ " has no layout") [])
  let page ← fetchLeaves client native.leaves ∅
  let sources ← fetchSources client page page.values ∅
  let schema ← fetchSchema client (tablesMet page sources) ⟨tables, ∅, ∅, sources⟩
  return decompile native page schema o

def readBack {α σ : Type} [Scalar α] (client : Client α σ) (config : CompilerConfig)
    (view : ViewRef) (tables : TableMap) (s : σ) : Except CompileError (Decompiled α) × σ :=
  (readBackRun client config.reverse view tables).start s

end PaneLayout
