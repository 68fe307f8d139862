import PaneLayout.Layout.Basic

set_option autoImplicit false

/-!
# Violations

What can be wrong with a layout, as causes, and the rule and message by which each is reported.

Rules `L0` to `L8` concern the layout alone. `L9` to `L13` need the document or the run.
-/

namespace PaneLayout

/-- A reported problem: the code of the rule and what to tell the author. -/
structure Issue where
  rule : String
  message : String
deriving DecidableEq, Inhabited

def Issue.text (i : Issue) : String := "[" ++ i.rule ++ "] " ++ i.message

inductive Violation where
  | noLayout
  | duplicateSection (id : SectionId)
  | tooFewChildren (split : String) (count : Nat)
  | weightCount (split : String) (weights children : Nat)
  /-- With the text of the weight. -/
  | badWeight (split : String) (index : Nat) (weight : String)
  | reservedSection (pane : String)
  | reservedSource (pane : String)
  | emptyTable (index : Nat)
  | emptyColumn (pane : String) (kind : LinkKind)
  | selfLink (pane : String)
  | selfLinkByName (pane key : String)
  | ambiguousName (pane key : String) (candidates : List Nat)
  | scalarColumn (link column type : String)
  | listColumn (link column type : String)
  | notSummary (link owner source : String)
  | missingSection (pane : String) (id : SectionId)
  | noView
  | noViewGiven
  | unresolvedTarget (pane : String) (target : LinkTarget)
  | unknownTables (pane : String)
  | unresolvedPane (index : Nat)
  | unresolvedPlaceholder (placeholder : String)
  | noChildren (split : String)
deriving DecidableEq, Inhabited

namespace Violation

def rule : Violation → String
  | noLayout => "L0"
  | duplicateSection _ => "L1"
  | tooFewChildren _ _ | noChildren _ => "L2"
  | weightCount _ _ _ => "L3"
  | badWeight _ _ _ => "L4"
  | reservedSection _ | reservedSource _ => "L5"
  | emptyTable _ | emptyColumn _ _ => "L6"
  | selfLink _ | selfLinkByName _ _ => "L7"
  | ambiguousName _ _ _ => "L8"
  | scalarColumn _ _ _ | listColumn _ _ _ => "L9"
  | notSummary _ _ _ => "L10"
  | missingSection _ _ => "L11"
  | noView | noViewGiven => "L12"
  | unresolvedTarget _ _ | unknownTables _ | unresolvedPane _ | unresolvedPlaceholder _ => "L13"

def indexList (is : List Nat) : String := "[" ++ ", ".intercalate (is.map decimal) ++ "]"

def message : Violation → String
  | noLayout => "Layout is empty"
  | duplicateSection id => "Duplicate section id: " ++ id.text
  | tooFewChildren split n => split ++ " must have at least two children, found " ++ decimal n
  | weightCount split w c =>
    split ++ " has " ++ decimal w ++ " weights for " ++ decimal c
      ++ " children; give all weights or none"
  | badWeight split i w =>
    split ++ " weight " ++ decimal i ++ " is not positive: " ++ w
  | reservedSection pane => pane ++ ": section id 0 is reserved"
  | reservedSource pane => pane ++ ": link source section id 0 is reserved"
  | emptyTable i => "Pane " ++ decimal i ++ " has an empty table name"
  | emptyColumn pane kind => pane ++ ": " ++ kind.text ++ " has an empty column id"
  | selfLink pane => pane ++ " links to itself"
  | selfLinkByName pane key => pane ++ " links to itself via '" ++ key ++ "'"
  | ambiguousName pane key is =>
    pane ++ ": pane name '" ++ key ++ "' matches " ++ decimal is.length ++ " panes ("
      ++ indexList is ++ ")"
  | scalarColumn link col type =>
    link ++ ": ListedIn needs a list-valued column, '" ++ col ++ "' is " ++ type
  | listColumn link col type =>
    link ++ ": '" ++ col ++ "' is list-valued (" ++ type ++ "); use ListedIn"
  | notSummary link owner source =>
    link ++ ": table " ++ owner ++ " is not a summary of " ++ source
  | missingSection pane id => pane ++ ": section " ++ id.text ++ " does not exist"
  | noView => "No target view"
  | noViewGiven => "No target view and no new pane to create one"
  | unresolvedTarget pane target => pane ++ ": link target " ++ target.text ++ " unresolved"
  | unknownTables pane => pane ++ ": link tables unknown"
  | unresolvedPane i => "Pane " ++ decimal i ++ " has no section id"
  | unresolvedPlaceholder p => "Placeholder " ++ p ++ " was never resolved"
  | noChildren split => split ++ " has no children"

def issue (v : Violation) : Issue := ⟨v.rule, v.message⟩

end Violation
end PaneLayout
