import PaneLayout.Datum.Fields
import PaneLayout.Decimal.Nearest
import PaneLayout.Yaml.Cursor

set_option autoImplicit false

/-!
# The values of scalars

A plain scalar without a tag is read as what it looks like: nothing, a truth value, an integer, a
double, or else a text. Digits after a leading zero look like no number, and integers that need
more than 64 bits have no value until they are too large for 128.
-/

namespace PaneLayout.Yaml

def isNullWord (t : List Char) : Bool := ["null", "Null", "NULL", "~"].any (·.toList == t)

def truth? (t : List Char) : Option Bool :=
  if ["true", "True", "TRUE"].any (·.toList == t) then some true
  else if ["false", "False", "FALSE"].any (·.toList == t) then some false
  else none

def isSign (c : Char) : Bool := c == '+' || c == '-'

def startsWithSign (t : List Char) : Bool := (t.head?.map isSign).getD false

/-- A number that starts with a zero and goes on with digits. -/
def hasLeadingZero (t : List Char) : Bool :=
  match if startsWithSign t then t.drop 1 else t with
  | '0' :: d :: ds => (d :: ds).all fun x => (digit? x).isSome
  | _ => false

/-- All of the text in digits of the base. -/
def inBase? (base : Nat) (t : List Char) : Option Nat :=
  if t.isEmpty then none
  else t.foldl (fun n c => do
    let d ← hexDigit? c
    if d < base then return base * (← n) + d else none) (some 0)

/-- The text without a plus sign, which no other sign may follow. -/
def unsigned? : List Char → Option (List Char)
  | '+' :: t => if startsWithSign t then none else some t
  | t => some t

def magnitude? (t digits : List Char) : Option Nat :=
  match digits with
  | '0' :: 'x' :: ds => inBase? 16 ds
  | '0' :: 'o' :: ds => inBase? 8 ds
  | '0' :: 'b' :: ds => inBase? 2 ds
  | ds => if hasLeadingZero t then none else inBase? 10 ds

def natural? (t : List Char) : Option Nat := (unsigned? t).bind (magnitude? t)

/-- What follows a minus sign. -/
def negative? (t : List Char) : Option Nat :=
  match t with
  | '-' :: ds => magnitude? t ds
  | _ => none

/-- `some none` for an integer without a value. -/
def integer? (t : List Char) : Option (Option Datum) :=
  let bounded (n low high : Nat) (d : Datum) : Option (Option Datum) :=
    if n < low then some (some d) else if n < high then some none else none
  match natural? t, negative? t with
  | some n, _ => bounded n (Nat.pow 2 64) (Nat.pow 2 128) (.unsigned n)
  | none, some n => bounded n (Nat.pow 2 63 + 1) (Nat.pow 2 127 + 1) (.signed (-(n : Int)))
  | none, none => none

def decimalDigits (t : List Char) : Nat := (t.filterMap digit?).foldl (fun n d => 10 * n + d) 0

def exponent? : List Char → Option Int
  | [] => some 0
  | e :: t =>
    if e = 'e' ∨ e = 'E' then
      let digits := if startsWithSign t then t.drop 1 else t
      if digits.isEmpty ∨ !(digits.all fun x => (digit? x).isSome) then none
      else some (if t.head? = some '-' then -(decimalDigits digits : Int) else decimalDigits digits)
    else none

/-- Digits with a point and an exponent, each of which may be missing, within the range of a
double. -/
def numeral? (t : List Char) : Option Float := do
  let (negative, t) := if t.head? = some '-' then (true, t.drop 1) else (false, t)
  let isDigit (x : Char) : Bool := (digit? x).isSome
  let whole := t.takeWhile isDigit
  let t := t.dropWhile isDigit
  let (fraction, t) := match t with
    | '.' :: t => (t.takeWhile isDigit, t.dropWhile isDigit)
    | t => ([], t)
  let digits := whole ++ fraction
  if digits.isEmpty then none
  else
    let x := Decimal.nearest (decimalDigits digits) ((← exponent? t) - fraction.length)
    if x.isFinite then some (if negative then -x else x) else none

def real? (t : List Char) : Option Float := do
  let u ← unsigned? t
  if [".inf", ".Inf", ".INF"].any (·.toList == u) then some (1.0 / 0.0)
  else if ["-.inf", "-.Inf", "-.INF"].any (·.toList == t) then some (-1.0 / 0.0)
  else if [".nan", ".NaN", ".NAN"].any (·.toList == t) then some (0.0 / 0.0)
  else numeral? u

def plainDatum? (t : List Char) : Option Datum :=
  if t.isEmpty || isNullWord t then some .null
  else match truth? t, integer? t with
    | some b, _ => some (.bool b)
    | none, some d => d
    | none, none => match if hasLeadingZero t then none else real? t with
      | some x => some (.real x)
      | none => some (.text (String.ofList t))

end PaneLayout.Yaml
