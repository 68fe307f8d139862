import PaneLayout.Layout.Names
import PaneLayout.Layout.Violation
import PaneLayout.Text.Blank

set_option autoImplicit false

/-!
# Valid layouts

Checking a layout before anything is asked of the document. All violations are listed: first those
of section ids, then those of splits from the root down, then those of each pane and its link.
-/

namespace PaneLayout.Layout

variable {α : Type} [Scalar α]

/-- Zero is reserved, and from its second use on an id is a duplicate. -/
def sectionViolations (seen : List SectionId) : List Pane → List Violation
  | [] => []
  | p :: ps => match p.section? with
    | some id =>
      if !id.isValid then .reservedSection p.label :: sectionViolations seen ps
      else if seen.contains id then .duplicateSection id :: sectionViolations seen ps
      else sectionViolations (id :: seen) ps
    | none => sectionViolations seen ps

def weightViolations (label : String) (i : Nat) : List α → List Violation
  | [] => []
  | w :: ws =>
    (if Scalar.isPositive w then [] else [.badWeight label i (Scalar.text w)])
      ++ weightViolations label (i + 1) ws

/-- What is wrong with one split, its children left aside. -/
def shapeViolations (label : String) (children : Nat) (weights : Option (List α)) :
    List Violation :=
  (if children < 2 then [.tooFewChildren label children] else [])
    ++ match weights with
      | some ws =>
        (if ws.length = children then [] else [.weightCount label ws.length children])
          ++ weightViolations label 0 ws
      | none => []

mutual

def splitViolations : Layout α → List Violation
  | pane _ => []
  | split axis cs ws =>
    shapeViolations (axis.label cs.length) cs.length ws ++ splitViolationsOf cs

def splitViolationsOf : List (Layout α) → List Violation
  | [] => []
  | c :: cs => splitViolations c ++ splitViolationsOf cs

end

def targetViolations (names : NameIndex) (index : Nat) (p : Pane) (l : Link) :
    List Violation :=
  match l.source with
  | .id id =>
    if !id.isValid then [.reservedSource p.label]
    else if p.section? = some id then [.selfLink p.label]
    else []
  | .name key => match names.resolve key with
    | .unique i => if i = index then [.selfLinkByName p.label key] else []
    | .ambiguous is => [.ambiguousName p.label key is]
    | .missing => []

def linkViolations (names : NameIndex) (index : Nat) (p : Pane) (l : Link) : List Violation :=
  ((l.sourceCol.toList ++ l.targetCol.toList).filter Text.isBlank).map
      (fun _ => .emptyColumn p.label l.kind)
    ++ targetViolations names index p l

def paneViolations (names : NameIndex) (index : Nat) (p : Pane) : List Violation :=
  (match p.table? with
    | some table => if Text.isBlank table then [.emptyTable index] else []
    | none => [])
    ++ match p.link with
      | some l => linkViolations names index p l
      | none => []

def paneViolationsFrom (names : NameIndex) (index : Nat) : List Pane → List Violation
  | [] => []
  | p :: ps => paneViolations names index p ++ paneViolationsFrom names (index + 1) ps

def violations (t : Layout α) : List Violation :=
  sectionViolations [] t.panes ++ splitViolations t
    ++ paneViolationsFrom (.ofLayout t) 0 t.panes

def violations? : Option (Layout α) → List Violation
  | some t => t.violations
  | none => [.noLayout]

/-- The report on a layout; empty when it can be planned. -/
def validate (t : Option (Layout α)) : List Issue := (violations? t).map (·.issue)

end PaneLayout.Layout
