import PaneLayout.Client
import PaneLayout.CompileError
import PaneLayout.Config
import PaneLayout.TableMap

set_option autoImplicit false

/-!
# Checked links

From a link to the tuple a document stores.

The link's column is looked up on the source's table and its target column on the owner's. Columns
and lineage are asked of the document once per table and kept; a call that fails is not kept.
-/

namespace PaneLayout

/-- The tables at both ends of a link. -/
structure LinkEnds where
  owner : TableRef
  source : TableRef
deriving DecidableEq, Inhabited

/-- What has been learned of the schema, beside the state of the document. -/
structure Schooled (σ : Type) where
  engine : σ
  columns : SortedMap TableRef (List ColumnInfo)
  lineage : SortedMap TableRef (Option TableRef)

def Schooled.fresh {σ : Type} (s : σ) : Schooled σ := ⟨s, ∅, ∅⟩

abbrev LinkRun (σ : Type) := Run (Schooled σ) CompileError

/-- What a link is checked against. -/
structure LinkRules where
  tables : TableMap
  columnKinds : Bool
  lineage : Bool

def LinkRules.ofConfig (tables : TableMap) (c : CompilerConfig) : LinkRules :=
  ⟨tables, c.checkColumnKinds, c.checkBreakdownLineage⟩

namespace LinkRun

variable {σ β : Type}

/-- A call to the document; what it answers on failure carries no created widgets yet. -/
def ask (step : FailedStep) (call : σ → Reply σ β) : LinkRun σ β :=
  Run.ofReply
    (fun s => let (r, e) := call s.engine; (r, { s with engine := e }))
    (fun f => .collaboratorFailure step f.message [])

end LinkRun

namespace LinkCheck

variable {α σ : Type}

def columns (client : Client α σ) (t : TableRef) : LinkRun σ (List ColumnInfo) := do
  match (← get).columns.get? t with
  | some cols => return cols
  | none =>
    let cols ← LinkRun.ask (.loadSchema t) (client.listColumns t)
    modify fun s => { s with columns := s.columns.insert t cols }
    return cols

def summarySource (client : Client α σ) (t : TableRef) : LinkRun σ (Option TableRef) := do
  match (← get).lineage.get? t with
  | some known => return known
  | none =>
    let source ← LinkRun.ask (.loadSchema t) (client.summarySource t)
    modify fun s => { s with lineage := s.lineage.insert t source }
    return source

/-- The ids an author may choose from, in order, the row id among them. -/
def knownColumns (cols : List ColumnInfo) : List String :=
  (cols.map (·.id) ++ [rowIdColumn]).mergeSort fun a b => decide (a ≤ b)

def column (client : Client α σ) (rules : LinkRules) (t : TableRef) (id label : String) :
    LinkRun σ ColumnInfo := do
  if id == rowIdColumn then return .rowId
  let cols ← columns client t
  match cols.find? fun c => c.id == id with
  | some c => return c
  | none =>
    throw (.unknownColumn (TableMap.displayName rules.tables t) id label (knownColumns cols))

def kindViolation? (l : Link) (c : ColumnInfo) (label : String) : Option Violation :=
  match l with
  | .listedIn _ _ => if c.isListValued then none else some (.scalarColumn label c.id c.type)
  | .filteredBy _ _ => if c.isListValued then some (.listColumn label c.id c.type) else none
  | _ => none

def sourceColumn (client : Client α σ) (rules : LinkRules) (l : Link) (ends : LinkEnds)
    (label : String) : LinkRun σ ColumnRef := do
  match l.sourceCol with
  | some id =>
    let c ← column client rules ends.source id label
    match if rules.columnKinds then kindViolation? l c label else none with
    | some v => throw (.malformed v)
    | none => return c.ref
  | none => return .unset

def targetColumn (client : Client α σ) (rules : LinkRules) (l : Link) (ends : LinkEnds)
    (label : String) : LinkRun σ ColumnRef := do
  match l.targetCol with
  | some id => return (← column client rules ends.owner id label).ref
  | none => return .unset

def checkLineage (client : Client α σ) (rules : LinkRules) (l : Link) (ends : LinkEnds)
    (label : String) : LinkRun σ Unit := do
  if rules.lineage && l.kind = .breakdownOf then
    let source ← summarySource client ends.owner
    if source ≠ some ends.source then
      throw (.malformed (.notSummary label (TableMap.displayName rules.tables ends.owner)
        (TableMap.displayName rules.tables ends.source)))

/-- The columns of the link, once everything about it is in order. -/
def check (client : Client α σ) (rules : LinkRules) (l : Link) (ends : LinkEnds)
    (label : String) : LinkRun σ (ColumnRef × ColumnRef) := do
  let label := l.text ++ " on " ++ label
  let source ← sourceColumn client rules l ends label
  let target ← targetColumn client rules l ends label
  checkLineage client rules l ends label
  return (source, target)

def resolve (client : Client α σ) (rules : LinkRules) (l : Link) (source : SectionId)
    (ends : LinkEnds) (label : String) : LinkRun σ LinkTuple := do
  let (sourceCol, targetCol) ← check client rules l ends label
  return ⟨source, sourceCol, targetCol⟩

end LinkCheck
end PaneLayout
