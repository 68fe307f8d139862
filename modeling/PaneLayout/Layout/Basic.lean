import PaneLayout.Link
import PaneLayout.Widget
import PaneLayout.Scalar

set_option autoImplicit false

/-!
# Layouts

The declarative layout of a page: panes, shared out by nested splits of any number of children.

A pane is an existing section, bare or with texts and a link, or a new widget that is still to be
created. `Layout.panes` lists the panes from left to right, and every index of a pane in this
library counts along that list.
-/

namespace PaneLayout

/-- Children of a horizontal split stand side by side, of a vertical one on top of each other. -/
inductive Axis where
  | horizontal | vertical
deriving DecidableEq, Inhabited

structure PaneInfo where
  name : Option String
  title : Option String
  description : Option String
  link : Option Link
deriving DecidableEq, Inhabited

def PaneInfo.none : PaneInfo := ⟨.none, .none, .none, .none⟩

inductive Pane where
  | leaf (id : SectionId)
  | new (table : String) (type : WidgetType) (info : PaneInfo)
  | existing (id : SectionId) (info : PaneInfo)
deriving DecidableEq, Inhabited

namespace Pane

def info : Pane → PaneInfo
  | leaf _ => .none
  | new _ _ i | existing _ i => i

def name (p : Pane) : Option String := p.info.name
def title (p : Pane) : Option String := p.info.title
def description (p : Pane) : Option String := p.info.description
def link (p : Pane) : Option Link := p.info.link

def section? : Pane → Option SectionId
  | leaf id | existing id _ => some id
  | new _ _ _ => none

/-- The table that a new pane names. -/
def table? : Pane → Option String
  | new table _ _ => some table
  | _ => none

def isNew (p : Pane) : Bool := p.table?.isSome

/-- A bare leaf has no texts and no link to change. -/
def mapInfo (f : PaneInfo → PaneInfo) : Pane → Pane
  | leaf id => leaf id
  | new table type i => new table type (f i)
  | existing id i => existing id (f i)

/-- How messages speak of the pane. -/
def label : Pane → String
  | leaf id => "Leaf " ++ id.text
  | new table _ i => match i.name <|> i.title with
    | some n => "NewPane '" ++ n ++ "' on " ++ table
    | none => "NewPane on " ++ table
  | existing id i => match i.name with
    | some n => "ExistingPane '" ++ n ++ "' " ++ id.text
    | none => "ExistingPane " ++ id.text

end Pane

inductive Layout (α : Type) where
  | pane (p : Pane)
  | split (axis : Axis) (children : List (Layout α)) (weights : Option (List α))
deriving Inhabited

def Axis.label : Axis → Nat → String
  | .horizontal, n => "ColSplit[" ++ decimal n ++ "]"
  | .vertical, n => "RowSplit[" ++ decimal n ++ "]"

namespace Layout

variable {α : Type}

def pane? : Layout α → Option Pane
  | pane p => some p
  | split .. => none

def children : Layout α → List (Layout α)
  | pane _ => []
  | split _ cs _ => cs

def weights : Layout α → Option (List α)
  | pane _ => none
  | split _ _ ws => ws

def label : Layout α → String
  | pane p => p.label
  | split axis cs _ => axis.label cs.length

mutual

def panes : Layout α → List Pane
  | pane p => [p]
  | split _ cs _ => panesOf cs

def panesOf : List (Layout α) → List Pane
  | [] => []
  | c :: cs => panes c ++ panesOf cs

end

mutual

/-- The tree and all trees below it, each before its children. -/
def nodes : Layout α → List (Layout α)
  | pane p => [pane p]
  | split axis cs ws => split axis cs ws :: nodesOf cs

def nodesOf : List (Layout α) → List (Layout α)
  | [] => []
  | c :: cs => nodes c ++ nodesOf cs

end

/-! ## Shares -/

section
variable [Scalar α]
open Scalar

def evenShares (n : Nat) : List α := List.replicate n (one / ofNat n)

/-- Shares in proportion to the weights. They are scaled by their greatest first, so that the sum
stays finite; weights that cannot be scaled or do not fit count as equal. -/
def sharesOf (weights : Option (List α)) (n : Nat) : List α :=
  match weights with
  | some ws =>
    if ws.length = n then
      let m := top ws
      if isPositive m then
        let scaled := ws.map (· / m)
        let total := sum scaled
        scaled.map (· / total)
      else evenShares n
    else evenShares n
  | none => evenShares n

def shares (t : Layout α) : List α := sharesOf t.weights t.children.length

mutual

/-- The part of `share` that each pane takes up, in the order of `panes`. -/
def areasWithin (share : α) : Layout α → List α
  | pane _ => [share]
  | split _ cs ws => areasOf share cs (sharesOf ws cs.length)

def areasOf (share : α) : List (Layout α) → List α → List α
  | c :: cs, w :: ws => areasWithin (share * w) c ++ areasOf share cs ws
  | _, _ => []

end

def paneAreas (t : Layout α) : List α := t.areasWithin one

end

/-! ## Building -/

def mapInfo (f : PaneInfo → PaneInfo) : Layout α → Layout α
  | pane p => pane (p.mapInfo f)
  | t => t

def withLink (t : Layout α) (l : Link) : Layout α := t.mapInfo fun i => { i with link := some l }
def withTitle (t : Layout α) (s : String) : Layout α :=
  t.mapInfo fun i => { i with title := some s }
def withDescription (t : Layout α) (s : String) : Layout α :=
  t.mapInfo fun i => { i with description := some s }
def withName (t : Layout α) (s : String) : Layout α := t.mapInfo fun i => { i with name := some s }

/-- A pane has no weights to set. -/
def withWeights (t : Layout α) (ws : List α) : Layout α :=
  match t with
  | split axis cs _ => split axis cs (some ws)
  | pane p => pane p

end Layout
end PaneLayout
