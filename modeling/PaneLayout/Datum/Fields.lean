import PaneLayout.Datum

set_option autoImplicit false

/-!
# Records and unions in data

A record is a map from field names, where unknown keys are passed over and a known key may stand
once, or a list of the fields in order. A tagged union says in one entry of its map, or in the first
item of its list, which of its variants it is.

To find the tag, a union has to be gathered as a whole before any of it is read. What has been
gathered is read more freely than what comes directly from a text: variants and fields may be
given by number, and an empty map will do where nothing is expected.
-/

namespace PaneLayout

inductive Mode where
  | direct | gathered
deriving DecidableEq

namespace Datum

def natBelow? (bound : Nat) : Datum → Option Nat
  | unsigned n => if n < bound then some n else none
  | signed i => if 0 ≤ i ∧ i.toNat < bound then some i.toNat else none
  | _ => none

def word? (d : Datum) : Option UInt32 := (d.natBelow? (Nat.pow 2 32)).map UInt32.ofNat

def ofWord (w : UInt32) : Datum := unsigned w.toNat

/-- An integer will do for a double. -/
def float? : Datum → Option Float
  | unsigned n => some (Float.ofNat n)
  | signed i => some (Float.ofInt i)
  | real x => some x
  | _ => none

def text? : Datum → Option String
  | text s => some s
  | _ => none

def bool? : Datum → Option Bool
  | bool b => some b
  | _ => none

def listOf? {β : Type} (f : Datum → Option β) : Datum → Option (List β)
  | list items => items.mapM f
  | _ => none

def option? {β : Type} (f : Datum → Option β) : Datum → Option (Option β)
  | null => some none
  | d => (f d).map some

/-- Levels of nesting, one for a scalar. -/
def depth : Datum → Nat
  | list items => 1 + depthOf items
  | map entries => 1 + depthOfEntries entries
  | _ => 1
where
  depthOf : List Datum → Nat
    | [] => 0
    | d :: ds => max d.depth (depthOf ds)
  depthOfEntries : List (Datum × Datum) → Nat
    | [] => 0
    | (_, v) :: es => max v.depth (depthOfEntries es)

end Datum

/-- The fields of a record that were given, by position. -/
abbrev Fields := List (Nat × Datum)

namespace Fields

/-- `none` for a key that no record can have, `some none` for one that this record does not know. -/
def index? (names : List String) : Datum → Option (Option Nat)
  | .text s => some (names.idxOf? s)
  | .unsigned n => some (if n < names.length then some n else none)
  | _ => none

def ofEntries? (names : List String) : List (Datum × Datum) → Option Fields
  | [] => some []
  | (k, v) :: es => do
    let known ← index? names k
    let rest ← ofEntries? names es
    match known with
    | some i => if rest.any fun f => f.1 == i then none else return (i, v) :: rest
    | none => return rest

def ofItems : Nat → List Datum → Fields
  | _, [] => []
  | i, d :: ds => (i, d) :: ofItems (i + 1) ds

def ofDatum? (names : List String) : Datum → Option Fields
  | .map entries => ofEntries? names entries
  | .list items => if items.length ≤ names.length then some (ofItems 0 items) else none
  | _ => none

def get? (fs : Fields) (i : Nat) : Option Datum := (fs.find? fun f => f.1 == i).map (·.2)

variable {β : Type}

def required (fs : Fields) (i : Nat) (f : Datum → Option β) : Option β := (get? fs i).bind f

def optional (fs : Fields) (i : Nat) (f : Datum → Option β) : Option (Option β) :=
  match get? fs i with
  | some d => d.option? f
  | none => some none

def defaulted (fs : Fields) (i : Nat) (f : Datum → Option β) (default : β) : Option β :=
  match get? fs i with
  | some d => f d
  | none => some default

end Fields

namespace Datum

def variant? (mode : Mode) (names : List String) : Datum → Option Nat
  | text s => names.idxOf? s
  | unsigned n => if mode = .gathered ∧ n < names.length then some n else none
  | _ => none

def isTag (tag : String) (e : Datum × Datum) : Bool :=
  match e.1 with
  | text s => s == tag
  | _ => false

/-- The variant of a union and what is left of it. -/
def tagged? (mode : Mode) (tag : String) (names : List String) (d : Datum) :
    Option (Nat × Datum) := do
  if mode = .direct ∧ d.isReadable = false then none
  else match d with
    | map entries => match entries.filter (isTag tag) with
      | [e] => return (← e.2.variant? mode names, map (entries.filter fun e => !isTag tag e))
      | _ => none
    | list (t :: items) => return (← t.variant? mode names, list items)
    | _ => none

def isNothing (mode : Mode) : Datum → Bool
  | null => true
  | map [] => mode = .gathered
  | _ => false

/-- A union without fields: its name, or a map from its name to nothing. -/
def plainVariant? (mode : Mode) (names : List String) : Datum → Option Nat
  | text s => names.idxOf? s
  | map [(k, v)] => if v.isNothing mode then k.variant? mode names else none
  | _ => none

/-- The value whose text is in the same place of the list of names. -/
def oneOf? {β : Type} (mode : Mode) (values : List β) (name : β → String) (d : Datum) : Option β :=
  (d.plainVariant? mode (values.map name)).bind (values[·]?)

end Datum
end PaneLayout
