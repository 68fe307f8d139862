import PaneLayout.Command.Arguments
import PaneLayout.Ident

set_option autoImplicit false

/-!
# Commands and what they are run with

The settings may be named before the command, after it, or in the environment; the place nearest to
the command decides, and the environment last of all.
-/

namespace PaneLayout

inductive Command where
  /-- Checks the shape of a layout. -/
  | validate (layout : String)
  /-- Compiles a layout into the document, and reads the page back if asked to. -/
  | compile (layout document : String) (view : Option ViewRef) (readBack : Bool)
  | readBack (document : String) (view : ViewRef)
deriving DecidableEq

structure Invocation where
  config : Option String
  command : Command
deriving DecidableEq

namespace Invocation

open Command

def configVariable : String := "DASHLAYOUT_CONFIG"

def path (p : String) : Except Stop String := if p.isEmpty then .error .misuse else .ok p

def require {β : Type} : Option β → Except Stop β
  | some b => .ok b
  | none => .error .misuse

/-- A whole number, whose sign is optional, as the number of a page. -/
def view (s : String) : Except Stop ViewRef :=
  let (negative, digits) := match s.toList with
    | '+' :: cs => (false, cs)
    | '-' :: cs => (true, cs)
    | cs => (false, cs)
  let n := digits.foldl (fun n c => 10 * n + (c.toNat - '0'.toNat)) 0
  let isNumber := !digits.isEmpty && digits.all fun c => '0' ≤ c && c ≤ '9'
  if isNumber && n < Nat.pow 2 32 && (!negative || n == 0) then .ok (.ofNat n) else .error .misuse

/-- The command's own options and flags. -/
def options : String → Except Stop Options
  | "validate" => .ok ⟨["config"], []⟩
  | "compile" => .ok ⟨["config", "document", "view"], ["read-back"]⟩
  | "read-back" => .ok ⟨["config", "document", "view"], []⟩
  | "help" => .error .help
  | _ => .error .misuse

def commandOf (name : String) (a : Arguments) : Except Stop Command := do
  match name, a.operands with
  | "validate", [layout] => return .validate (← path layout)
  | "compile", [layout] =>
    return .compile (← path layout) (← path (← require (a.value? "document")))
      (← (a.value? "view").mapM view) (a.flags.contains "read-back")
  | "read-back", [] =>
    return .readBack (← path (← require (a.value? "document")))
      (← view (← require (a.value? "view")))
  | _, _ => .error .misuse

/-- The environment counts at each place where nothing is named. -/
def configPath (outer inner environment : Option String) : Except Stop (Option String) := do
  let outerPath ← (outer <|> environment).mapM path
  let innerPath ← (inner <|> environment).mapM path
  return if inner.isSome then innerPath else outerPath

def ofArgs (environment : Option String) (args : List String) : Except Stop Invocation := do
  let (outer, rest) ← Arguments.read ⟨["config"], []⟩ true .empty args
  match rest with
  | [] => .error .misuse
  | name :: rest =>
    let (inner, _) ← Arguments.read (← options name) false .empty rest
    let c ← commandOf name inner
    return ⟨← configPath (outer.value? "config") (inner.value? "config") environment, c⟩

/-- The files that a run may read. -/
def paths (i : Invocation) : List String :=
  i.config.toList ++ match i.command with
    | .validate layout => [layout]
    | .compile layout document _ _ => [layout, document]
    | .readBack document _ => [document]

end Invocation
end PaneLayout
