import PaneLayout.Command.Run
import Std.Time.DateTime.Timestamp

set_option autoImplicit false

/-!
# The program

Results go to the standard output as JSON, problems to the standard error.
-/

namespace PaneLayout.Main

def usage : String := "Usage:
  dashlayout validate <layout>
  dashlayout compile <layout> --document <fixture.json> [--view N] [--read-back]
  dashlayout read-back --document <fixture.json> --view N

Options:
  --config <path>   Compiler settings (YAML); DASHLAYOUT_* variables override them
"

def readText (path : String) : IO (Option String) := do
  try
    return some (← IO.FS.readFile path)
  catch _ =>
    return none

def newId : IO Uuid := do
  let now ← Std.Time.Timestamp.now
  let random := (← IO.getRandomBytes 10).toList.foldl (fun n b => 256 * n + b.toNat) 0
  return .ofTime now.toMillisecondsSinceUnixEpoch.val.toNat random

/-- The variables and the files that the run may ask for. -/
def host (args : List String) : IO Host := do
  let names := Invocation.configVariable :: CompilerConfig.overrideNames
  let values ← names.mapM fun name => do return (name, ← IO.getEnv name)
  let variableOf (name : String) : Option String := (values.lookup name).join
  let paths := match Invocation.ofArgs (variableOf Invocation.configVariable) args with
    | .ok i => i.paths
    | .error _ => []
  let files ← paths.mapM fun path => do return (path, ← readText path)
  return ⟨fun path => (files.lookup path).join, variableOf⟩

def print (r : Report) : IO Unit := do
  for d in r.printed do
    IO.println (Json.pretty 0 d)
  if let some e := r.problem then IO.eprintln (Json.pretty 0 e.datum)
  match r.ending with
  | .done => return ()
  | .failed message => IO.eprintln ("Error: " ++ message)
  | .aborted => IO.eprintln "attempt to add with overflow"
  | .stopped .help => IO.print usage
  | .stopped .misuse => IO.eprint usage

end PaneLayout.Main

def main (args : List String) : IO UInt32 := do
  let r := (← PaneLayout.Main.host args).run (← PaneLayout.Main.newId) args
  PaneLayout.Main.print r
  return r.ending.exitCode.toUInt32
