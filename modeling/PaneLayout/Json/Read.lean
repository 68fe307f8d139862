import PaneLayout.Datum
import PaneLayout.Decimal.Nearest

set_option autoImplicit false

/-!
# Reading JSON

The grammar is strict: no leading zeros, no trailing commas, nothing after the value. Two kinds of
scalar are well formed and still have no value, numbers beyond the range of a double and texts
holding half of a surrogate pair; they are read as `Datum.unreadable`.
-/

namespace PaneLayout.Json

def isSpace (c : Char) : Bool := c == ' ' || c == '\n' || c == '\t' || c == '\r'

def skip (cs : List Char) : List Char := cs.dropWhile isSpace

def digit? (c : Char) : Option Nat :=
  if '0' ≤ c ∧ c ≤ '9' then some (c.toNat - '0'.toNat) else none

def isDigit (c : Char) : Bool := (digit? c).isSome

def hexDigit? (c : Char) : Option Nat :=
  if '0' ≤ c ∧ c ≤ '9' then some (c.toNat - '0'.toNat)
  else if 'a' ≤ c ∧ c ≤ 'f' then some (c.toNat - 'a'.toNat + 10)
  else if 'A' ≤ c ∧ c ≤ 'F' then some (c.toNat - 'A'.toNat + 10)
  else none

def hexDigits? (cs : List Char) : Option Nat :=
  cs.foldl (fun n c => do return 16 * (← n) + (← hexDigit? c)) (some 0)

/-! ## Numbers -/

structure Numeral where
  negative : Bool
  whole : List Nat
  fraction : Option (List Nat)
  exponent : Option Int

def takeDigits : List Char → List Nat × List Char
  | [] => ([], [])
  | c :: cs => match digit? c with
    | some d => let (ds, rest) := takeDigits cs; (d :: ds, rest)
    | none => ([], c :: cs)

def natOf (ds : List Nat) : Nat := ds.foldl (fun n d => 10 * n + d) 0

def exponent? : List Char → Option (Option Int × List Char)
  | c :: cs =>
    if c = 'e' ∨ c = 'E' then
      let (negative, cs) := match cs with
        | '+' :: cs => (false, cs)
        | '-' :: cs => (true, cs)
        | cs => (false, cs)
      match takeDigits cs with
      | ([], _) => none
      | (ds, rest) => some (some (if negative then -(natOf ds : Int) else natOf ds), rest)
    else some (none, c :: cs)
  | [] => some (none, [])

def fraction? : List Char → Option (Option (List Nat) × List Char)
  | '.' :: cs => match takeDigits cs with
    | ([], _) => none
    | (ds, rest) => some (some ds, rest)
  | cs => some (none, cs)

def takeMinus : List Char → Bool × List Char
  | '-' :: cs => (true, cs)
  | cs => (false, cs)

def numeral? (cs : List Char) : Option (Numeral × List Char) := do
  let (negative, cs) := takeMinus cs
  let (whole, cs) := takeDigits cs
  match whole with
  | [] => none
  | 0 :: _ :: _ => none
  | _ =>
    let (fraction, cs) ← fraction? cs
    let (exponent, cs) ← exponent? cs
    return (⟨negative, whole, fraction, exponent⟩, cs)

def limit : Nat := Nat.pow 2 64

/-- Digits are gathered while they fit in 64 bits; the second part counts those left over. -/
def gather (n : Nat) : List Nat → Nat × Nat
  | [] => (n, 0)
  | d :: ds => if 10 * n + d < limit then gather (10 * n + d) ds else (n, ds.length + 1)

/-- The digits of the fraction that still fit, and how many they are. -/
def gatherFraction (n taken : Nat) : List Nat → Nat × Nat
  | [] => (n, taken)
  | d :: ds => if 10 * n + d < limit then gatherFraction (10 * n + d) (taken + 1) ds else (n, taken)

def Numeral.real (n : Numeral) : Datum :=
  let (significand, left) := gather 0 n.whole
  let (significand, taken) := gatherFraction significand 0 (n.fraction.getD [])
  match Decimal.scaled (Float.ofNat significand) ((left : Int) - taken + n.exponent.getD 0) with
  | some f => .real (if n.negative then -f else f)
  | none => .unreadable

/-- A numeral without point and exponent is an integer as long as it fits in 64 bits. A negative
zero is a double. -/
def Numeral.datum (n : Numeral) : Datum :=
  match n.fraction, n.exponent with
  | none, none =>
    let v := natOf n.whole
    if n.negative then
      if v = 0 ∨ limit / 2 < v then n.real else .signed (-(v : Int))
    else if v < limit then .unsigned v else n.real
  | _, _ => n.real

/-! ## Texts -/

def isHigh (n : Nat) : Bool := 0xd800 ≤ n && n < 0xdc00
def isLow (n : Nat) : Bool := 0xdc00 ≤ n && n < 0xe000

def escape? : Char → Option Char
  | '"' => some '"'
  | '\\' => some '\\'
  | '/' => some '/'
  | 'b' => some '\x08'
  | 'f' => some '\x0c'
  | 'n' => some '\n'
  | 'r' => some '\r'
  | 't' => some '\t'
  | _ => none

/-- What has been read of a text: its characters in reverse, a high surrogate that waits for its
other half, and whether all halves so far have met. -/
structure Partial where
  done : List Char
  high : Option Nat
  whole : Bool

def Partial.push (p : Partial) (c : Char) : Partial :=
  ⟨c :: p.done, none, p.whole && p.high.isNone⟩

def Partial.pushUnit (p : Partial) (n : Nat) : Partial :=
  match p.high with
  | some h =>
    if isLow n then
      ⟨Char.ofNat (0x10000 + (h - 0xd800) * 0x400 + (n - 0xdc00)) :: p.done, none, p.whole⟩
    else ⟨p.done, none, false⟩
  | none =>
    if isHigh n then ⟨p.done, some n, p.whole⟩
    else if isLow n then ⟨p.done, none, false⟩
    else ⟨Char.ofNat n :: p.done, none, p.whole⟩

def Partial.datum (p : Partial) : Datum :=
  if p.whole && p.high.isNone then .text (String.ofList p.done.reverse) else .unreadable

/-- The rest of a text after its opening quote. -/
def text? (p : Partial) : List Char → Option (Datum × List Char)
  | '"' :: rest => some (p.datum, rest)
  | '\\' :: 'u' :: a :: b :: c :: d :: rest => do
    let n ← hexDigits? [a, b, c, d]
    text? (p.pushUnit n) rest
  | '\\' :: c :: rest => do
    let e ← escape? c
    text? (p.push e) rest
  | c :: rest => if c.toNat < 0x20 ∨ c = '\\' then none else text? (p.push c) rest
  | [] => none

/-! ## Values -/

def literal? (word : List Char) (d : Datum) (cs : List Char) : Option (Datum × List Char) :=
  if word.isPrefixOf cs then some (d, cs.drop word.length) else none

section
variable (num : Numeral → Datum)

mutual

/-- A value at the head of the text, where `num` says what a numeral stands for. Each call spends
one unit of `fuel`, so twice the length of the text is enough. -/
def value? : Nat → List Char → Option (Datum × List Char)
  | 0, _ => none
  | fuel + 1, cs =>
    match skip cs with
    | '"' :: rest => text? ⟨[], none, true⟩ rest
    | '[' :: rest => match skip rest with
      | ']' :: rest => some (.list [], rest)
      | rest => do
        let (items, rest) ← items? fuel rest
        return (.list items, rest)
    | '\x7b' :: rest => match skip rest with
      | '\x7d' :: rest => some (.map [], rest)
      | rest => do
        let (entries, rest) ← entries? fuel rest
        return (.map entries, rest)
    | 'n' :: rest => literal? ['u', 'l', 'l'] .null rest
    | 't' :: rest => literal? ['r', 'u', 'e'] (.bool true) rest
    | 'f' :: rest => literal? ['a', 'l', 's', 'e'] (.bool false) rest
    | rest => do
      let (n, rest) ← numeral? rest
      return (num n, rest)

def items? : Nat → List Char → Option (List Datum × List Char)
  | 0, _ => none
  | fuel + 1, cs => do
    let (d, rest) ← value? fuel cs
    match skip rest with
    | ']' :: rest => return ([d], rest)
    | ',' :: rest =>
      let (ds, rest) ← items? fuel rest
      return (d :: ds, rest)
    | _ => none

def entries? : Nat → List Char → Option (List (Datum × Datum) × List Char)
  | 0, _ => none
  | fuel + 1, cs =>
    match skip cs with
    | '"' :: rest => do
      let (k, rest) ← text? ⟨[], none, true⟩ rest
      match skip rest with
      | ':' :: rest =>
        let (v, rest) ← value? fuel rest
        match skip rest with
        | '\x7d' :: rest => return ([(k, v)], rest)
        | ',' :: rest =>
          let (es, rest) ← entries? fuel rest
          return ((k, v) :: es, rest)
        | _ => none
      | _ => none
    | _ => none

end

/-- The whole text is one value. -/
def readWith? (s : String) : Option Datum := do
  let cs := s.toList
  let (d, rest) ← value? num (2 * cs.length + 2) cs
  if (skip rest).isEmpty then some d else none

end

def read? (s : String) : Option Datum := readWith? Numeral.datum s

end PaneLayout.Json
