set_option autoImplicit false

/-!
# Arguments of a command

An option is written `--name value` or `--name=value` and a flag `--name`, each at most once. After
`--` every argument is an operand.
-/

namespace PaneLayout.Command

/-- Why there is nothing to run. -/
inductive Stop where
  | help | misuse
deriving DecidableEq

structure Options where
  valued : List String
  flags : List String

structure Arguments where
  values : List (String × String)
  flags : List String
  operands : List String

namespace Arguments

def empty : Arguments := ⟨[], [], []⟩

def value? (a : Arguments) (name : String) : Option String := a.values.lookup name

def setValue (a : Arguments) (o : Options) (name value : String) : Except Stop Arguments :=
  if o.valued.contains name ∧ (a.value? name).isNone then
    .ok { a with values := a.values ++ [(name, value)] }
  else .error .misuse

def setFlag (a : Arguments) (name : String) : Except Stop Arguments :=
  if a.flags.contains name then .error .misuse else .ok { a with flags := a.flags ++ [name] }

/-- A dash alone is an operand. -/
def isDashed (arg : String) : Bool := arg.toList.head? == some '-' && arg != "-"

/-- The name and the value of a long option. -/
def long? (arg : String) : Option (String × Option String) :=
  match arg.toList with
  | '-' :: '-' :: cs =>
    let name := cs.takeWhile (· != '=')
    let value := match cs.dropWhile (· != '=') with
      | _ :: v => some (String.ofList v)
      | [] => none
    some (String.ofList name, value)
  | _ => none

/-- Reads arguments, and where `first` is set stops at the first operand, which starts the rest. -/
def read (o : Options) (first : Bool) (a : Arguments) :
    List String → Except Stop (Arguments × List String)
  | [] => .ok (a, [])
  | arg :: rest =>
    if arg = "--" then .ok ({ a with operands := a.operands ++ rest }, [])
    else if arg = "-h" ∨ arg = "--help" then .error .help
    else match long? arg with
      | some (name, some value) => do read o first (← a.setValue o name value) rest
      | some (name, none) =>
        if o.flags.contains name then do read o first (← a.setFlag name) rest
        else match rest with
          | value :: rest =>
            if isDashed value then .error .misuse
            else do read o first (← a.setValue o name value) rest
          | [] => .error .misuse
      | none =>
        if isDashed arg then .error .misuse
        else if first then .ok (a, arg :: rest)
        else read o first { a with operands := a.operands ++ [arg] } rest

end Arguments
end PaneLayout.Command
