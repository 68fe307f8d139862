set_option autoImplicit false

/-!
# Shortest decimals

Decimal digits of a double: the fewest that read back as the same double, and of those the nearest.

A finite double is `m * 2 ^ q`. The reals that round to it form an interval around it, closed when
`m` is even; on the grid of `n`-digit decimals only the two neighbours of the double itself need
testing. All arithmetic is on naturals over the common unit of the interval's ends.
-/

namespace PaneLayout.Decimal

/-- A positive double as `m * 2 ^ q`; `lower` is set when the gap below is half the gap above. -/
structure Binary where
  m : Nat
  q : Int
  lower : Bool

def Binary.ofBits (bits : UInt64) : Binary :=
  let fraction : Nat := bits.toNat % Nat.pow 2 52
  let exponent : Nat := bits.toNat / Nat.pow 2 52 % Nat.pow 2 11
  if exponent = 0 then ⟨fraction, -1074, false⟩
  else ⟨Nat.pow 2 52 + fraction, exponent - 1075, fraction = 0 && exponent != 1⟩

/-- A decimal `digits * 10 ^ exponent`. -/
structure Digits where
  digits : Nat
  exponent : Int
deriving DecidableEq, Inhabited

/-- Numerators of the value, the ends of its interval, and one grid step, over one denominator. -/
structure Scaled where
  value : Nat
  low : Nat
  high : Nat
  step : Nat
  closed : Bool

def Scaled.ofBinary (b : Binary) (e : Int) : Scaled :=
  let two := Nat.pow 2 (b.q - 2).toNat * Nat.pow 10 (-e).toNat
  ⟨4 * b.m * two, (4 * b.m - if b.lower then 1 else 2) * two, (4 * b.m + 2) * two,
    Nat.pow 10 e.toNat * Nat.pow 2 (2 - b.q).toNat, b.m % 2 = 0⟩

def Scaled.holds (s : Scaled) (d : Nat) : Bool :=
  let x := d * s.step
  if s.closed then s.low ≤ x && x ≤ s.high else s.low < x && x < s.high

/-- The grid point in the interval that is nearest to the value; `up` settles an exact tie. -/
def Scaled.pick? (s : Scaled) (up : Nat → Bool) : Option Nat :=
  let d := s.value / s.step
  let below := s.value - d * s.step
  let above := (d + 1) * s.step - s.value
  match s.holds d, s.holds (d + 1) with
  | true, true =>
    some (if below < above then d else if above < below then d + 1 else if up d then d + 1 else d)
  | true, false => some d
  | false, true => some (d + 1)
  | false, false => none

/-- The least `k` with `b < 10 ^ k`, found from the binary length and corrected by one. -/
def magnitude (b : Binary) : Int :=
  let length : Int := Nat.log2 b.m + b.q
  let guess : Int := length * 30103 / 100000
  let reaches (k : Int) : Bool :=
    Nat.pow 10 k.toNat * Nat.pow 2 (-b.q).toNat ≤ b.m * Nat.pow 2 b.q.toNat * Nat.pow 10 (-k).toNat
  if reaches (guess + 1) then guess + 2 else if reaches guess then guess + 1 else guess

def trim (d : Digits) : Nat → Digits
  | 0 => d
  | n + 1 => if d.digits % 10 = 0 then trim ⟨d.digits / 10, d.exponent + 1⟩ n else d

def search (b : Binary) (k : Int) (up : Nat → Bool) (n : Nat) : Nat → Digits
  | 0 => ⟨b.m, b.q⟩
  | fuel + 1 =>
    match (Scaled.ofBinary b (k - n)).pick? up with
    | some d => trim ⟨d, k - n⟩ 17
    | none => search b k up (n + 1) fuel

/-- Shortest digits of the positive double with these bits. Seventeen digits always suffice. -/
def shortest (up : Nat → Bool) (bits : UInt64) : Digits :=
  let b := Binary.ofBits bits
  search b (magnitude b) up 1 17

/-- How a number is set out once its digits are known. The point stands after `k` digits. -/
structure Style where
  positional : Int → Bool
  /-- A whole number still shows a point and a zero. -/
  pointZero : Bool
  up : Nat → Bool

def zeros (n : Nat) : String := String.ofList (List.replicate n '0')

def Style.place (style : Style) (d : Digits) : String :=
  let s := Nat.repr d.digits
  let n : Int := s.length
  let k := n + d.exponent
  if style.positional k then
    if k ≤ 0 then "0." ++ zeros (-k).toNat ++ s
    else if n ≤ k then s ++ zeros (k - n).toNat ++ (if style.pointZero then ".0" else "")
    else String.ofList (s.toList.take k.toNat) ++ "." ++ String.ofList (s.toList.drop k.toNat)
  else
    let e := k - 1
    let mantissa := match s.toList with
      | c :: [] => String.ofList [c]
      | c :: cs => String.ofList (c :: '.' :: cs)
      | [] => ""
    mantissa ++ "e" ++ (if e < 0 then "-" else "+") ++ Nat.repr e.natAbs

/-- The text of a finite double. -/
def Style.text (style : Style) (x : Float) : String :=
  let bits := x.toBits
  let size := bits.toNat % Nat.pow 2 63
  (if bits.toNat = size then "" else "-") ++
    if size = 0 then (if style.pointZero then "0.0" else "0")
    else style.place (shortest style.up (UInt64.ofNat size))

/-- In full, without an exponent or a bare zero after the point. -/
def plain : Style := ⟨fun _ => true, false, fun _ => true⟩

end PaneLayout.Decimal
