import PaneLayout.Command.Invocation
import PaneLayout.Datum.Document
import PaneLayout.Datum.Outcome
import PaneLayout.Layout.Text
import PaneLayout.Layout.Validate
import PaneLayout.ReadBack

set_option autoImplicit false

/-!
# Running a command

The settings are read first, then the layout, then the document. Whatever a run has printed before
it fails stays printed.
-/

namespace PaneLayout

/-- What a run sees of the world: files by path and variables by name. -/
structure Host where
  fileOf : String → Option String
  variableOf : String → Option String

inductive Ending where
  | done
  | failed (message : String)
  /-- A call on the document did not return. -/
  | aborted
  | stopped (why : Command.Stop)
deriving DecidableEq

def Ending.exitCode : Ending → Nat
  | done => 0
  | failed _ => 1
  | aborted => 101
  | stopped .help => 0
  | stopped .misuse => 2

structure Report where
  /-- One JSON document each. -/
  printed : List Datum
  /-- The error of a compilation or of reading back. -/
  problem : Option CompileError
  ending : Ending

namespace Report

def fail (printed : List Datum) (message : String) : Report := ⟨printed, none, .failed message⟩

def failWith (printed : List Datum) (e : CompileError) : Report :=
  ⟨printed, some e, .failed e.message⟩

end Report

namespace Host

def config (h : Host) (path : Option String) : Except String CompilerConfig := do
  let base ← match path with
    | none => .ok CompilerConfig.standard
    | some p => match h.fileOf p with
      | none => .error ("Failed to read config " ++ p)
      | some text => match CompilerConfig.ofYaml? text with
        | some c => .ok c
        | none => .error ("Failed to parse config " ++ p)
  return base.withOverrides h.variableOf

def request (h : Host) (path : String) : Except String (LayoutRequest Float) :=
  match h.fileOf path with
  | none => .error ("Failed to read layout " ++ path)
  | some text => match LayoutRequest.ofText text with
    | .ok r => .ok r
    | .error _ => .error ("In " ++ path)

def document (h : Host) (path : String) : Except String (Document Float) :=
  match h.fileOf path with
  | none => .error ("Failed to read document " ++ path)
  | some text => match Document.read text with
    | .ok d => .ok d
    | .error _ => .error ("In " ++ path)

def validate (h : Host) (path : String) : Except String Report := do
  let issues := Layout.validate (← h.request path).layout
  let printed := [Datum.ofList Issue.datum issues]
  return if issues.isEmpty then ⟨printed, none, .done⟩
    else .fail printed (decimal issues.length ++ " issue(s) in " ++ path)

def readBack (config : CompilerConfig) (view : ViewRef) (tables : TableMap) (printed : List Datum)
    (d : Document Float) : Report :=
  match (PaneLayout.readBack Document.client config view tables d).1 with
  | .ok page => ⟨printed ++ [page.datum], none, .done⟩
  | .error e => .failWith printed e

def compile (h : Host) (id : Uuid) (config : CompilerConfig) (layout document : String)
    (view : Option ViewRef) (thenReadBack : Bool) : Except String Report := do
  let request ← h.request layout
  let d ← h.document document
  let request := { request with
    tables := if request.tables.isEmpty then d.tableMap else request.tables
    view := view <|> request.view }
  let (result, d) := PaneLayout.compile Document.client config id request d
  return if d.overflowed then ⟨[], none, .aborted⟩
    else match result with
      | .error e => .failWith [] e
      | .ok outcome =>
        if thenReadBack then readBack config outcome.view request.tables [outcome.datum] d
        else ⟨[outcome.datum], none, .done⟩

def execute (h : Host) (id : Uuid) (i : Invocation) : Except String Report := do
  let config ← h.config i.config
  match i.command with
  | .validate layout => h.validate layout
  | .compile layout document view thenReadBack =>
    h.compile id config layout document view thenReadBack
  | .readBack document view => do
    let d ← h.document document
    return readBack config view d.tableMap [] d

/-- Runs the program. `id` names the compilation, if there is one. -/
def run (h : Host) (id : Uuid) (args : List String) : Report :=
  match Invocation.ofArgs (h.variableOf Invocation.configVariable) args with
  | .error why => ⟨[], none, .stopped why⟩
  | .ok i => match h.execute id i with
    | .ok r => r
    | .error message => .fail [] message

end Host
end PaneLayout
