import PaneLayout.Layout.Basic

set_option autoImplicit false

/-!
# Native pages

The page as a document stores it: a binary tree of splits over section ids.

The leaf type is a parameter, because a page is laid out before its new sections have ids.
-/

namespace PaneLayout

/-- `ratio` is the share of the first child. -/
inductive Native (α ι : Type) where
  | leaf (id : ι)
  | split (axis : Axis) (ratio : α) (first second : Native α ι)
deriving DecidableEq, Inhabited

namespace Native

variable {α ι κ : Type}

def leaves : Native α ι → List ι
  | leaf id => [id]
  | split _ _ a b => a.leaves ++ b.leaves

def depth : Native α ι → Nat
  | leaf _ => 1
  | split _ _ a b => 1 + max a.depth b.depth

/-- The same tree over other leaves, visited from left to right. -/
def mapLeaves {m : Type → Type} [Monad m] (f : ι → m κ) : Native α ι → m (Native α κ)
  | leaf id => do return leaf (← f id)
  | split axis ratio a b => do
    let a ← mapLeaves f a
    let b ← mapLeaves f b
    return split axis ratio a b

section
variable [Scalar α]

/-- A chain over the children and the total weight under it. -/
def chainWeighted (axis : Axis) : List (Native α ι × α) → Option (Native α ι × α)
  | [] => none
  | (n, w) :: rest => match chainWeighted axis rest with
    | none => some (n, w)
    | some (tail, under) => some (split axis (w / (w + under)) n tail, w + under)

/-- An N-way split as a right-leaning chain of binary ones, each child against all that follow. -/
def chain (axis : Axis) (children : List (Native α ι)) (weights : List α) :
    Option (Native α ι) :=
  (chainWeighted axis (children.zip weights)).map (·.1)

/-- The part of `share` that each leaf takes up. -/
def areasWithin (share : α) : Native α ι → List α
  | leaf _ => [share]
  | split _ ratio a b =>
    a.areasWithin (share * ratio) ++ b.areasWithin (share * (Scalar.one - ratio))

def areas (n : Native α ι) : List α := n.areasWithin Scalar.one

end
end Native
end PaneLayout
