import PaneLayout.Compile
import PaneLayout.Datum.Native
import PaneLayout.Decompile

set_option autoImplicit false

/-!
# Errors, outcomes and recovered pages as data

Every record has its fields in one order, and what has no value is left out.
-/

namespace PaneLayout

namespace FailedStep

def stepNames : List String :=
  ["create_widget", "apply_mutations", "fetch_widget", "load_schema", "load_layout"]

def datum : FailedStep → Datum
  | createWidget i t =>
    .record [("step", .text "create_widget"), ("pane_index", .unsigned i), ("table", t.datum)]
  | applyMutations i k =>
    .record ([("step", .text "apply_mutations")]
      ++ Datum.optionalField "index" (i.map .unsigned)
      ++ Datum.optionalField "mutation" (k.map MutationKind.datum))
  | fetchWidget id => .record [("step", .text "fetch_widget"), ("section", id.datum)]
  | loadSchema t => .record [("step", .text "load_schema"), ("table", t.datum)]
  | loadLayout v => .record [("step", .text "load_layout"), ("view", v.datum)]

/-- Positions are 64-bit numbers. -/
def position? (d : Datum) : Option Nat := d.natBelow? (Nat.pow 2 64)

def ofDatum? (mode : Mode) (d : Datum) : Option FailedStep := do
  let (step, body) ← d.tagged? mode "step" stepNames
  match step with
  | 0 =>
    let fs ← Fields.ofDatum? ["pane_index", "table"] body
    return createWidget (← fs.required 0 position?) (← fs.required 1 TableRef.ofDatum?)
  | 1 =>
    let fs ← Fields.ofDatum? ["index", "mutation"] body
    return applyMutations (← fs.optional 0 position?)
      (← fs.optional 1 (MutationKind.ofDatum? .gathered))
  | 2 =>
    let fs ← Fields.ofDatum? ["section"] body
    return fetchWidget (← fs.required 0 SectionId.ofDatum?)
  | 3 =>
    let fs ← Fields.ofDatum? ["table"] body
    return loadSchema (← fs.required 0 TableRef.ofDatum?)
  | 4 =>
    let fs ← Fields.ofDatum? ["view"] body
    return loadLayout (← fs.required 0 ViewRef.ofDatum?)
  | _ => none

end FailedStep

namespace DanglingLink

def datum (l : DanglingLink) : Datum :=
  .record [("owner", .text l.owner), ("target", l.target.datum)]

def ofDatum? (d : Datum) : Option DanglingLink := do
  let fs ← Fields.ofDatum? ["owner", "target"] d
  return ⟨← fs.required 0 Datum.text?, ← fs.required 1 LinkTarget.ofDatum?⟩

end DanglingLink

namespace CompileError

def kindNames : List String :=
  ["malformed_layout", "unknown_table", "unknown_column", "dangling_link_target",
    "collaborator_failure"]

def body : CompileError → List (String × Datum)
  | malformedLayout issues => [("issues", .ofList Issue.datum issues)]
  | unknownTable table pane known =>
    [("table", .text table), ("pane", .text pane), ("known", .ofList .text known)]
  | unknownColumn table column link known =>
    [("table", .text table), ("col_id", .text column), ("link", .text link),
      ("known", .ofList .text known)]
  | danglingLinkTarget links created =>
    [("links", .ofList DanglingLink.datum links), ("created", .ofList WidgetInfo.datum created)]
  | collaboratorFailure step message created =>
    [("step", step.datum), ("message", .text message),
      ("created", .ofList WidgetInfo.datum created)]

def datum (e : CompileError) : Datum := .record (("error_kind", .text e.kindName) :: e.body)

def ofDatum? (mode : Mode) (d : Datum) : Option CompileError := do
  let (kind, body) ← d.tagged? mode "error_kind" kindNames
  let texts := Datum.listOf? Datum.text?
  let widgets := Datum.listOf? (WidgetInfo.ofDatum? .gathered)
  match kind with
  | 0 =>
    let fs ← Fields.ofDatum? ["issues"] body
    return malformedLayout (← fs.required 0 (Datum.listOf? Issue.ofDatum?))
  | 1 =>
    let fs ← Fields.ofDatum? ["table", "pane", "known"] body
    return unknownTable (← fs.required 0 Datum.text?) (← fs.required 1 Datum.text?)
      (← fs.required 2 texts)
  | 2 =>
    let fs ← Fields.ofDatum? ["table", "col_id", "link", "known"] body
    return unknownColumn (← fs.required 0 Datum.text?) (← fs.required 1 Datum.text?)
      (← fs.required 2 Datum.text?) (← fs.required 3 texts)
  | 3 =>
    let fs ← Fields.ofDatum? ["links", "created"] body
    return danglingLinkTarget (← fs.required 0 (Datum.listOf? DanglingLink.ofDatum?))
      (← fs.defaulted 1 widgets [])
  | 4 =>
    let fs ← Fields.ofDatum? ["step", "message", "created"] body
    return collaboratorFailure (← fs.required 0 (FailedStep.ofDatum? .gathered))
      (← fs.required 1 Datum.text?) (← fs.required 2 widgets)
  | _ => none

end CompileError

namespace CreatedWidget

def datum (w : CreatedWidget) : Datum :=
  .record [("section_id", w.id.datum), ("view_ref", w.view.datum)]

def ofDatum? (d : Datum) : Option CreatedWidget := do
  let fs ← Fields.ofDatum? ["section_id", "view_ref"] d
  return ⟨← fs.required 0 SectionId.ofDatum?, ← fs.required 1 ViewRef.ofDatum?⟩

end CreatedWidget

namespace CompileOutcome

def datum {α : Type} [Scalar α] (o : CompileOutcome α) : Datum :=
  .record [("compilation_id", .text o.id.text), ("view", o.view.datum), ("layout", o.layout.datum),
    ("mutations", .ofList Mutation.datum o.mutations),
    ("widgets", .ofList WidgetInfo.datum o.widgets),
    ("created", .ofList SectionId.datum o.created), ("fingerprint", .text o.fingerprint)]

def fieldNames : List String :=
  ["compilation_id", "view", "layout", "mutations", "widgets", "created", "fingerprint"]

def ofDatum? (d : Datum) : Option (CompileOutcome Float) := do
  let fs ← Fields.ofDatum? fieldNames d
  return ⟨← fs.required 0 fun d => d.text?.bind Uuid.read?, ← fs.required 1 ViewRef.ofDatum?,
    ← fs.required 2 (Native.ofDatum? .direct),
    ← fs.required 3 (Datum.listOf? (Mutation.ofDatum? .direct)),
    ← fs.required 4 (Datum.listOf? (WidgetInfo.ofDatum? .direct)),
    ← fs.required 5 (Datum.listOf? SectionId.ofDatum?), ← fs.required 6 Datum.text?⟩

end CompileOutcome

namespace WidgetSummary

def datum (w : WidgetSummary) : Datum :=
  .record ([("section_id", w.id.datum), ("table", .text w.table), ("widget_type", w.type.datum)]
    ++ Datum.optionalField "title" (w.title.map .text))

def ofDatum? (d : Datum) : Option WidgetSummary := do
  let fs ← Fields.ofDatum? ["section_id", "table", "widget_type", "title"] d
  return ⟨← fs.required 0 SectionId.ofDatum?, ← fs.required 1 Datum.text?,
    ← fs.required 2 (WidgetType.ofDatum? .direct), ← fs.optional 3 Datum.text?⟩

end WidgetSummary

namespace RecoveredLink

def datum (l : RecoveredLink) : Datum :=
  .record [("section", l.id.datum), ("raw", l.raw.datum), ("guess", l.guess.datum),
    ("alternatives", .ofList LinkKind.datum l.alternatives)]

def ofDatum? (d : Datum) : Option RecoveredLink := do
  let fs ← Fields.ofDatum? ["section", "raw", "guess", "alternatives"] d
  return ⟨← fs.required 0 SectionId.ofDatum?, ← fs.required 1 LinkTuple.ofDatum?,
    ← fs.required 2 (Link.ofDatum? .direct),
    ← fs.required 3 (Datum.listOf? (LinkKind.ofDatum? .direct))⟩

end RecoveredLink

namespace Decompiled

def datum {α : Type} [Scalar α] (d : Decompiled α) : Datum :=
  .record [("layout", d.layout.datum), ("widgets", .ofList WidgetSummary.datum d.widgets),
    ("links", .ofList RecoveredLink.datum d.links)]

def ofDatum? (d : Datum) : Option (Decompiled Float) := do
  let fs ← Fields.ofDatum? ["layout", "widgets", "links"] d
  return ⟨← fs.required 0 (Layout.ofDatum? .direct),
    ← fs.required 1 (Datum.listOf? WidgetSummary.ofDatum?),
    ← fs.required 2 (Datum.listOf? RecoveredLink.ofDatum?)⟩

end Decompiled
end PaneLayout
