set_option autoImplicit false

/-!
# Self-describing data

What a JSON or YAML text says before anything is made of it, and what is
written back as JSON.

A map keeps its entries in order and may repeat a key. `unreadable` marks a scalar that has a
place in the text but no value, such as a number beyond the range of a double: it may be skipped
and never read.
-/

namespace PaneLayout

inductive Datum where
  | null
  | bool (b : Bool)
  | unsigned (n : Nat)
  /-- An integer written with a sign. -/
  | signed (i : Int)
  | real (x : Float)
  | text (s : String)
  | list (items : List Datum)
  | map (entries : List (Datum × Datum))
  | unreadable
deriving Inhabited

namespace Datum

/-- A map whose keys are texts. -/
def record (fields : List (String × Datum)) : Datum :=
  map (fields.map fun f => (text f.1, f.2))

/-- A field that is left out when it has no value. -/
def optionalField (name : String) : Option Datum → List (String × Datum)
  | some d => [(name, d)]
  | none => []

def ofOption {α : Type} (f : α → Datum) : Option α → Datum
  | some a => f a
  | none => null

def ofList {α : Type} (f : α → Datum) (xs : List α) : Datum := list (xs.map f)

/-- A double without a finite value is written as nothing. -/
def ofFloat (x : Float) : Datum := if x.isFinite then real x else null

mutual

/-- Every scalar inside has a value. -/
def isReadable : Datum → Bool
  | unreadable => false
  | list items => areReadable items
  | map entries => entriesReadable entries
  | _ => true

def areReadable : List Datum → Bool
  | [] => true
  | d :: ds => isReadable d && areReadable ds

def entriesReadable : List (Datum × Datum) → Bool
  | [] => true
  | (k, v) :: es => isReadable k && isReadable v && entriesReadable es

end

def get? (d : Datum) (key : String) : Option Datum :=
  match d with
  | map entries => entries.findSome? fun
      | (text k, v) => if k == key then some v else none
      | _ => none
  | _ => none

end Datum
end PaneLayout
