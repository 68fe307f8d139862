import PaneLayout.Scalar
import PaneLayout.Decimal.Shortest

set_option autoImplicit false

/-!
# Doubles as shares of a page

Messages show them in full, without an exponent.
-/

namespace PaneLayout

instance : Scalar Float where
  ofNat := Float.ofNat
  tolerance := 1e-9
  abs := Float.abs
  lt a b := decide (a < b)
  isFinite := Float.isFinite
  text x :=
    if x.isNaN then "NaN"
    else if x.isInf then (if x < 0.0 then "-inf" else "inf")
    else Decimal.plain.text x
  datum := Datum.ofFloat

end PaneLayout
