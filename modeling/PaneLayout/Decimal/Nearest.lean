set_option autoImplicit false

/-!
# Doubles from decimals

`nearest` rounds once. `scaled` is the faster reading that takes the digits as one integer and
multiplies or divides it by a power of ten, each step rounded by itself; past a double's range
it has no value.
-/

namespace PaneLayout.Decimal

/-- `digits * 10 ^ e` to the nearest double; infinite or zero when far out of range. -/
def nearest (digits : Nat) (e : Int) : Float :=
  if digits = 0 then 0.0
  else
    let size : Int := Nat.log2 digits * 30103 / 100000 + e
    if 310 < size then 1.0 / 0.0
    else if size < -330 then 0.0
    else Float.ofScientific digits (e < 0) e.natAbs

def power (e : Nat) : Float := Float.ofScientific 1 false e

def scaled (f : Float) (e : Int) : Option Float :=
  if e.natAbs ≤ 308 then
    if 0 ≤ e then
      let g := f * power e.natAbs
      if g.isInf then none else some g
    else some (f / power e.natAbs)
  else if f == 0.0 then some f
  else if 0 ≤ e then none
  else scaled (f / power 308) (e + 308)
termination_by e.natAbs

end PaneLayout.Decimal
