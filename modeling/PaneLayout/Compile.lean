import PaneLayout.Datum.Native
import PaneLayout.Json.Write
import PaneLayout.LinkCheck
import PaneLayout.Plan
import PaneLayout.Sha256
import PaneLayout.Uuid

set_option autoImplicit false

/-!
# Compilation

One compilation, from a request to the changed document.

The plan is made first and asks nothing. The surroundings are read next: the widgets of existing
panes and of numeric link targets, and the columns every link needs. Then the new panes are created
from left to right, each creation followed by the links it made resolvable. A link that is still
waiting at the end stops the run; otherwise one bundle sets the page, its links and its texts.
-/

namespace PaneLayout

structure CompileOutcome (α : Type) where
  id : Uuid
  view : ViewRef
  layout : Native α SectionId
  mutations : List (Mutation α)
  /-- Every pane's widget as the bundle leaves it, in traversal order. -/
  widgets : List WidgetInfo
  created : List SectionId
  fingerprint : String

/-- What is known of the document before anything is created. -/
structure Surroundings where
  /-- The table of every pane, in traversal order. -/
  paneTables : List (Option TableRef)
  widgets : SortedMap SectionId WidgetInfo

/-- The tables at the ends of a link, as far as they are known. -/
def Surroundings.ends (s : Surroundings) (r : Registry) (l : PendingLink) : Option LinkEnds := do
  let owner ← (s.paneTables[l.ownerIndex]?).join
  let source ← match r.targetPane? l.target with
    | some i => (s.paneTables[i]?).join
    | none => match l.target with
      | .id id => (s.widgets.get? id).map (·.table)
      | .name _ => none
  return ⟨owner, source⟩

/-- What creation changes: the registry, the page, and what has been made and resolved. -/
structure Progress where
  registry : Registry
  view : Option ViewRef
  created : List WidgetInfo
  tuples : SortedMap Nat LinkTuple

def fingerprint {α : Type} [Scalar α] (ms : List (Mutation α)) : String :=
  Sha256.hexDigest (Json.compact (Datum.ofList Mutation.datum ms)).toUTF8.toList

namespace Compile

variable {α σ : Type}

def fetch (client : Client α σ) (id : SectionId) : LinkRun σ (Option WidgetInfo) :=
  LinkRun.ask (.fetchWidget id) (client.fetchWidget id)

def labelOf (plan : Plan α) (index : Nat) : String :=
  match plan.panes[index]? with
  | some p => p.label
  | none => ""

/-! ## Reading the surroundings -/

/-- The widgets of the panes that exist, and a violation for each that does not. -/
def fetchPanes (client : Client α σ) :
    List PanePlan → Surroundings → LinkRun σ (Surroundings × List Violation)
  | [], s => return (s, [])
  | p :: ps, s => do
    match p.ref with
    | .placeholder _ => fetchPanes client ps { s with paneTables := s.paneTables ++ [p.table] }
    | .real id =>
      match ← fetch client id with
      | some w =>
        fetchPanes client ps ⟨s.paneTables ++ [some w.table], s.widgets.insert id w⟩
      | none =>
        let (s, vs) ← fetchPanes client ps { s with paneTables := s.paneTables ++ [p.table] }
        return (s, .missingSection p.label id :: vs)

/-- Numeric link targets outside the tree. One that the document lacks stays unknown. -/
def fetchTargets (client : Client α σ) :
    List PendingLink → Registry → SortedMap SectionId WidgetInfo →
      LinkRun σ (Registry × SortedMap SectionId WidgetInfo)
  | [], r, ws => return (r, ws)
  | l :: ls, r, ws => do
    match l.target with
    | .name _ => fetchTargets client ls r ws
    | .id id =>
      if (r.targetPane? l.target).isSome || ws.contains id then fetchTargets client ls r ws
      else match ← fetch client id with
        | some w => fetchTargets client ls (r.markKnown id) (ws.insert id w)
        | none => fetchTargets client ls r ws

/-- Every link whose tables are known is checked before anything is created. -/
def checkLinks (client : Client α σ) (rules : LinkRules) (plan : Plan α) (r : Registry)
    (s : Surroundings) : List PendingLink → LinkRun σ Unit
  | [] => return ()
  | l :: ls => do
    match s.ends r l with
    | some ends => let _ ← LinkCheck.check client rules l.link ends (labelOf plan l.ownerIndex)
    | none => pure ()
    checkLinks client rules plan r s ls

def survey (client : Client α σ) (rules : LinkRules) (plan : Plan α) :
    LinkRun σ (Registry × Surroundings) := do
  let (s, missing) ← fetchPanes client plan.panes ⟨[], ∅⟩
  if !missing.isEmpty then throw (.malformedLayout (missing.map (·.issue)))
  let (r, widgets) ← fetchTargets client plan.links plan.registry s.widgets
  let s := { s with widgets }
  checkLinks client rules plan r s plan.links
  return (r, s)

/-! ## Links and creation -/

def resolveLink (client : Client α σ) (rules : LinkRules) (plan : Plan α) (r : Registry)
    (s : Surroundings) (l : PendingLink) : LinkRun σ LinkTuple := do
  let label := labelOf plan l.ownerIndex
  match r.lookupTarget l.target with
  | none => throw (.malformed (.unresolvedTarget label l.target))
  | some source => match s.ends r l with
    | none => throw (.malformed (.unknownTables label))
    | some ends => LinkCheck.resolve client rules l.link source ends label

/-- Links between panes that already exist are resolved, all others are queued. -/
def resolveOrDefer (client : Client α σ) (rules : LinkRules) (plan : Plan α) (s : Surroundings) :
    List PendingLink → Progress → LinkRun σ Progress
  | [], p => return p
  | l :: ls, p => do
    if p.registry.isResolvable l then
      let t ← resolveLink client rules plan p.registry s l
      resolveOrDefer client rules plan s ls { p with tuples := p.tuples.insert l.ownerIndex t }
    else resolveOrDefer client rules plan s ls { p with registry := p.registry.defer l }

def resolveDrained (client : Client α σ) (rules : LinkRules) (plan : Plan α) (s : Surroundings) :
    List PendingLink → Progress → LinkRun σ Progress
  | [], p => return p
  | l :: ls, p => do
    let t ← ExceptT.adapt (CompileError.withCreated p.created)
      (resolveLink client rules plan p.registry s l)
    resolveDrained client rules plan s ls { p with tuples := p.tuples.insert l.ownerIndex t }

def create (client : Client α σ) (c : Creation) (p : Progress) : LinkRun σ Progress := do
  let w ← ExceptT.adapt (CompileError.withCreated p.created)
    (LinkRun.ask (.createWidget c.paneIndex c.table) (client.createWidget c.table c.type p.view))
  return {
    registry := p.registry.resolve c.placeholder w.id
    view := p.view <|> some w.view
    created := p.created ++ [.create w.id c.table c.type]
    tuples := p.tuples }

def createAll (client : Client α σ) (rules : LinkRules) (plan : Plan α) (s : Surroundings) :
    List Creation → Progress → LinkRun σ Progress
  | [], p => return p
  | c :: cs, p => do
    let p ← create client c p
    let (ready, registry) := p.registry.drain
    let p ← resolveDrained client rules plan s ready { p with registry }
    createAll client rules plan s cs p

/-! ## The bundle -/

def dangling (plan : Plan α) (ls : List PendingLink) : List DanglingLink :=
  ls.map fun l => ⟨labelOf plan l.ownerIndex, l.target⟩

def applyBundle (client : Client α σ) (ms : List (Mutation α)) (created : List WidgetInfo) :
    LinkRun σ Unit :=
  Run.ofReply
    (fun s => let (r, e) := client.applyMutations ms s.engine; (r, { s with engine := e }))
    (fun f => .collaboratorFailure
      (.applyMutations f.index? ((f.index?.bind (ms[·]?)).map (·.kind))) f.message created)

def settledWidget (tuples : SortedMap Nat LinkTuple) (p : PanePlan) (w : WidgetInfo) : WidgetInfo :=
  let w := match tuples.get? p.index with
    | some t => w.withLink (some t)
    | none => w
  w.withTexts p.title p.description

/-- The record of every pane after the bundle, worked out without asking the document again. -/
def finalWidgets (plan : Plan α) (s : Surroundings) (p : Progress) :
    List PanePlan → Except CompileError (List WidgetInfo)
  | [] => .ok []
  | q :: qs => do
    let id ← plan.sectionOf q.index
    let rest ← finalWidgets plan s p qs
    match p.created.find? (fun w => w.id == id) <|> s.widgets.get? id with
    | some w => return settledWidget p.tuples q w :: rest
    | none => return rest

end Compile

variable {α σ : Type} [Scalar α]
open Compile

/-- The run on the document, with the schema it has learned. -/
def compileRun (client : Client α σ) (config : CompilerConfig) (id : Uuid)
    (request : LayoutRequest α) : LinkRun σ (CompileOutcome α) := do
  let plan ← liftExcept (Plan.make request.layout request.tables)
  if request.view.isNone && plan.creations.isEmpty then throw (.malformed .noViewGiven)
  let rules := LinkRules.ofConfig request.tables config
  let (registry, s) ← survey client rules plan
  let p ← resolveOrDefer client rules plan s plan.links ⟨registry, request.view, [], ∅⟩
  let p ← createAll client rules plan s plan.creations p
  if !p.registry.pending.isEmpty then
    throw (.danglingLinkTarget (dangling plan p.registry.pending) p.created)
  let some view := p.view | throw (.malformed .noView)
  let plan := { plan with registry := p.registry }
  let layout ← liftExcept plan.nativeLayout
  let mutations ← liftExcept (plan.mutations view layout p.tuples)
  applyBundle client mutations p.created
  let widgets ← liftExcept (finalWidgets plan s p plan.panes)
  return ⟨id, view, layout, mutations, widgets, p.created.map (·.id), fingerprint mutations⟩
where
  liftExcept {β : Type} (r : Except CompileError β) : LinkRun σ β := ExceptT.mk (pure r)

/-- Compiles a request: the outcome or the error, and the document in either case. -/
def compile (client : Client α σ) (config : CompilerConfig) (id : Uuid)
    (request : LayoutRequest α) (s : σ) : Except CompileError (CompileOutcome α) × σ :=
  let (r, t) := (compileRun client config id request).start (.fresh s)
  (r, t.engine)

end PaneLayout
