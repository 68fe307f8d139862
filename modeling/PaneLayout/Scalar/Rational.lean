import PaneLayout.Scalar

set_option autoImplicit false

/-!
# Rationals as shares of a page

The same computations as on doubles, without rounding.
-/

namespace PaneLayout

instance : Scalar Rat where
  ofNat n := (n : Rat)
  tolerance := 1e-9
  abs x := if x < 0 then -x else x
  lt a b := decide (a < b)
  isFinite _ := true
  text x := toString x.num ++ "/" ++ toString x.den
  datum x := .list [.signed x.num, .unsigned x.den]

end PaneLayout
