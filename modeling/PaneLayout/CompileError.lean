import PaneLayout.Layout.Violation
import PaneLayout.Native.Mutation

set_option autoImplicit false

/-!
# Errors of a compilation

Why a page was not compiled or read back.

A malformed layout, an unknown table and an unknown column are found before anything is written.
The other two carry the widgets created so far, which stay in the document.
-/

namespace PaneLayout

/-- The call to the document that failed. -/
inductive FailedStep where
  | createWidget (paneIndex : Nat) (table : TableRef)
  /-- With the position of the refused mutation, when the document told it. -/
  | applyMutations (index : Option Nat) (mutation : Option MutationKind)
  | fetchWidget (id : SectionId)
  | loadSchema (table : TableRef)
  | loadLayout (view : ViewRef)
deriving DecidableEq, Inhabited

def FailedStep.text : FailedStep → String
  | createWidget i t => "create_widget (pane " ++ decimal i ++ ", table " ++ t.text ++ ")"
  | applyMutations (some i) (some k) =>
    "apply_mutations (" ++ k.text ++ " at index " ++ decimal i ++ ")"
  | applyMutations (some i) none => "apply_mutations (index " ++ decimal i ++ ")"
  | applyMutations none _ => "apply_mutations"
  | fetchWidget id => "fetch_widget (" ++ id.text ++ ")"
  | loadSchema t => "list_columns (" ++ t.text ++ ")"
  | loadLayout v => "load_layout (" ++ v.text ++ ")"

/-- A link whose target got no section, under the label of its owner. -/
structure DanglingLink where
  owner : String
  target : LinkTarget
deriving DecidableEq, Inhabited

def DanglingLink.text (l : DanglingLink) : String := l.owner ++ " -> " ++ l.target.text

inductive CompileError where
  | malformedLayout (issues : List Issue)
  | unknownTable (table pane : String) (known : List String)
  | unknownColumn (table column link : String) (known : List String)
  | danglingLinkTarget (links : List DanglingLink) (created : List WidgetInfo)
  | collaboratorFailure (step : FailedStep) (message : String) (created : List WidgetInfo)
deriving DecidableEq, Inhabited

namespace CompileError

def malformed (v : Violation) : CompileError := malformedLayout [v.issue]

def created : CompileError → List WidgetInfo
  | danglingLinkTarget _ ws | collaboratorFailure _ _ ws => ws
  | _ => []

/-- Errors from before the first creation have no widgets to carry. -/
def withCreated (ws : List WidgetInfo) : CompileError → CompileError
  | danglingLinkTarget links _ => danglingLinkTarget links ws
  | collaboratorFailure step message _ => collaboratorFailure step message ws
  | e => e

def rules : CompileError → List String
  | malformedLayout issues => issues.map (·.rule)
  | _ => []

def kindName : CompileError → String
  | malformedLayout _ => "malformed_layout"
  | unknownTable _ _ _ => "unknown_table"
  | unknownColumn _ _ _ _ => "unknown_column"
  | danglingLinkTarget _ _ => "dangling_link_target"
  | collaboratorFailure _ _ _ => "collaborator_failure"

def message : CompileError → String
  | malformedLayout issues =>
    "Malformed layout:\n" ++ "\n".intercalate (issues.map fun i => "  - " ++ i.text)
  | unknownTable table pane known =>
    "Unknown table '" ++ table ++ "' in " ++ pane ++ "; known tables: " ++ ", ".intercalate known
  | unknownColumn table column link known =>
    "Unknown column '" ++ column ++ "' on table " ++ table ++ " in " ++ link
      ++ "; known columns: " ++ ", ".intercalate known
  | danglingLinkTarget links _ =>
    "Dangling link target: " ++ "; ".intercalate (links.map (·.text))
  | collaboratorFailure step message _ =>
    "Collaborator failure during " ++ step.text ++ ": " ++ message

end CompileError
end PaneLayout
