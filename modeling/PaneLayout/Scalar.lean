import PaneLayout.Datum

set_option autoImplicit false

/-!
# Scalars

The numbers that share out a page.

Weights, ratios and areas are doubles when a page is compiled. Everything between reading and
writing asks only for this class, so the same definitions also run on rationals, where no step
rounds.
-/

namespace PaneLayout

class Scalar (α : Type) extends Add α, Sub α, Mul α, Div α where
  ofNat : Nat → α
  /-- How far a share may be from an even one and still count as even. -/
  tolerance : α
  abs : α → α
  lt : α → α → Bool
  isFinite : α → Bool
  text : α → String
  datum : α → Datum

namespace Scalar

variable {α : Type} [Scalar α]

def zero : α := ofNat 0
def one : α := ofNat 1

/-- A number that can be a weight. -/
def isPositive (x : α) : Bool := isFinite x && lt zero x

def sum (xs : List α) : α := xs.foldl (· + ·) zero

/-- The greatest of the numbers and zero. What cannot be compared is passed over. -/
def top (xs : List α) : α := xs.foldl (fun m x => if lt m x then x else m) zero

end Scalar
end PaneLayout
