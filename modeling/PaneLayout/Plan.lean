import PaneLayout.CompileError
import PaneLayout.Layout.Validate
import PaneLayout.Registry
import PaneLayout.TableMap

set_option autoImplicit false

/-!
# Plans

The plan of a compilation: what to create, what to link, and the page over panes that may not
exist yet. Planning asks nothing of the document.
-/

namespace PaneLayout

structure Creation where
  paneIndex : Nat
  placeholder : PlaceholderId
  table : TableRef
  type : WidgetType
deriving DecidableEq, Inhabited

structure PanePlan where
  index : Nat
  ref : PaneRef
  /-- Only a new pane knows its table before the document is asked. -/
  table : Option TableRef
  label : String
  title : Option String
  description : Option String
deriving DecidableEq, Inhabited

/-- What lowering has gathered so far, in traversal order. -/
structure Draft where
  registry : Registry
  panes : List PanePlan
  creations : List Creation
  links : List PendingLink

def Draft.empty : Draft := ⟨.empty, [], [], []⟩

structure Plan (α : Type) where
  panes : List PanePlan
  creations : List Creation
  links : List PendingLink
  layout : Native α PaneRef
  registry : Registry

namespace Draft

def tableOf (tables : TableMap) (p : Pane) : Except CompileError (Option TableRef) :=
  match p.table? with
  | some name => match tables.get? name with
    | some t => .ok (some t)
    | none => .error (.unknownTable name p.label tables.keys)
  | none => .ok none

def creationOf (index : Nat) (ref : PaneRef) (table : Option TableRef) : Pane → List Creation
  | .new _ type _ => match ref, table with
    | .placeholder p, some t => [⟨index, p, t, type⟩]
    | _, _ => []
  | _ => []

def linkOf (index : Nat) (ref : PaneRef) (p : Pane) : List PendingLink :=
  match p.link with
  | some l => [⟨index, ref, l.source, l⟩]
  | none => []

def addPane (tables : TableMap) (d : Draft) (p : Pane) : Except CompileError (PaneRef × Draft) := do
  let table ← tableOf tables p
  let index := d.panes.length
  let (ref, registry) := d.registry.register p
  return (ref, ⟨registry, d.panes ++ [⟨index, ref, table, p.label, p.title, p.description⟩],
    d.creations ++ creationOf index ref table p, d.links ++ linkOf index ref p⟩)

variable {α : Type} [Scalar α]

mutual

def lower (tables : TableMap) (d : Draft) :
    Layout α → Except CompileError (Native α PaneRef × Draft)
  | .pane p => do
    let (ref, d) ← addPane tables d p
    return (.leaf ref, d)
  | .split axis cs ws => do
    let (ns, d) ← lowerAll tables d cs
    match Native.chain axis ns (Layout.sharesOf ws cs.length) with
    | some n => return (n, d)
    | none => throw (.malformed (.noChildren (axis.label cs.length)))

def lowerAll (tables : TableMap) (d : Draft) :
    List (Layout α) → Except CompileError (List (Native α PaneRef) × Draft)
  | [] => .ok ([], d)
  | c :: cs => do
    let (n, d) ← lower tables d c
    let (ns, d) ← lowerAll tables d cs
    return (n :: ns, d)

end

end Draft

namespace Plan

variable {α : Type}

section
variable [Scalar α]

def ofLayout (tables : TableMap) (t : Layout α) : Except CompileError (Plan α) := do
  let (layout, d) ← Draft.empty.lower tables t
  return ⟨d.panes, d.creations, d.links, layout, d.registry⟩

/-- Plans a layout that has no violations. -/
def make (t : Option (Layout α)) (tables : TableMap) : Except CompileError (Plan α) :=
  match t with
  | none => .error (.malformed .noLayout)
  | some t =>
    let issues := Layout.validate (some t)
    if issues.isEmpty then ofLayout tables t else .error (.malformedLayout issues)

end

def sectionOf (plan : Plan α) (index : Nat) : Except CompileError SectionId :=
  match plan.panes[index]?.bind fun p => plan.registry.lookup p.ref with
  | some id => .ok id
  | none => .error (.malformed (.unresolvedPane index))

/-- The page over section ids, once every placeholder has one. -/
def nativeLayout (plan : Plan α) : Except CompileError (Native α SectionId) :=
  plan.layout.mapLeaves fun ref => match plan.registry.lookup ref with
    | some id => .ok id
    | none => .error (.malformed (.unresolvedPlaceholder ref.text))

def linkMutations (plan : Plan α) : List (Nat × LinkTuple) → Except CompileError (List (Mutation α))
  | [] => .ok []
  | (owner, tuple) :: rest => do
    let id ← plan.sectionOf owner
    let ms ← linkMutations plan rest
    return .setLink id tuple :: ms

def textMutations (plan : Plan α) : List PanePlan → Except CompileError (List (Mutation α))
  | [] => .ok []
  | p :: ps =>
    if p.title.isNone && p.description.isNone then textMutations plan ps
    else do
      let id ← plan.sectionOf p.index
      let ms ← textMutations plan ps
      return .setSectionInfo id p.title p.description :: ms

/-- The bundle: the page, then the links in owner order, then the texts in pane order. -/
def mutations (plan : Plan α) (view : ViewRef) (layout : Native α SectionId)
    (links : SortedMap Nat LinkTuple) : Except CompileError (List (Mutation α)) := do
  let ls ← plan.linkMutations links.toList
  let ts ← plan.textMutations plan.panes
  return .setLayout view layout :: ls ++ ts

end Plan
end PaneLayout
