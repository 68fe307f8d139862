import PaneLayout.Ident

set_option autoImplicit false

/-!
# Links between panes

What a pane shows is driven by another pane, its source.

The source is given by section id or by the name of a pane in the same tree.
-/

namespace PaneLayout

inductive LinkTarget where
  | id (id : SectionId)
  | name (key : String)
deriving DecidableEq, Inhabited

def LinkTarget.text : LinkTarget → String
  | .id i => i.text
  | .name key => "'" ++ key ++ "'"

inductive LinkKind where
  | childOf | syncedWith | filteredBy | listedIn | matchedBy | breakdownOf
deriving DecidableEq, Inhabited

def LinkKind.text : LinkKind → String
  | .childOf => "ChildOf"
  | .syncedWith => "SyncedWith"
  | .filteredBy => "FilteredBy"
  | .listedIn => "ListedIn"
  | .matchedBy => "MatchedBy"
  | .breakdownOf => "BreakdownOf"

inductive Link where
  /-- The cursor follows the selected row of the source. -/
  | childOf (source : LinkTarget)
  /-- The cursor is kept in step with the source. -/
  | syncedWith (source : LinkTarget)
  /-- Rows are filtered by a scalar column of the source. -/
  | filteredBy (source : LinkTarget) (col : String)
  /-- Rows are filtered by membership in a list-valued column of the source. -/
  | listedIn (source : LinkTarget) (col : String)
  /-- A column of the source equals a column of the owner. -/
  | matchedBy (source : LinkTarget) (col target : String)
  /-- The owner's table summarises the table of the source. -/
  | breakdownOf (source : LinkTarget)
deriving DecidableEq, Inhabited

namespace Link

def kind : Link → LinkKind
  | childOf _ => .childOf
  | syncedWith _ => .syncedWith
  | filteredBy _ _ => .filteredBy
  | listedIn _ _ => .listedIn
  | matchedBy _ _ _ => .matchedBy
  | breakdownOf _ => .breakdownOf

def source : Link → LinkTarget
  | childOf s | syncedWith s | filteredBy s _ | listedIn s _ | matchedBy s _ _ | breakdownOf s => s

def sourceCol : Link → Option String
  | filteredBy _ c | listedIn _ c | matchedBy _ c _ => some c
  | childOf _ | syncedWith _ | breakdownOf _ => none

/-- The column on the owner's own table. -/
def targetCol : Link → Option String
  | matchedBy _ _ t => some t
  | _ => none

def bearsColumn (l : Link) : Bool := l.sourceCol.isSome

def withSource (s : LinkTarget) : Link → Link
  | childOf _ => childOf s
  | syncedWith _ => syncedWith s
  | filteredBy _ c => filteredBy s c
  | listedIn _ c => listedIn s c
  | matchedBy _ c t => matchedBy s c t
  | breakdownOf _ => breakdownOf s

def text (l : Link) : String :=
  l.kind.text ++ " \x7b from: " ++ l.source.text
    ++ (match l.sourceCol with | some c => ", col: " ++ c | none => "")
    ++ (match l.targetCol with | some c => ", to: " ++ c | none => "") ++ " \x7d"

@[simp] theorem source_withSource (s : LinkTarget) (l : Link) : (l.withSource s).source = s := by
  cases l <;> rfl

@[simp] theorem kind_withSource (s : LinkTarget) (l : Link) : (l.withSource s).kind = l.kind := by
  cases l <;> rfl

@[simp] theorem sourceCol_withSource (s : LinkTarget) (l : Link) :
    (l.withSource s).sourceCol = l.sourceCol := by cases l <;> rfl

@[simp] theorem targetCol_withSource (s : LinkTarget) (l : Link) :
    (l.withSource s).targetCol = l.targetCol := by cases l <;> rfl

end Link
end PaneLayout
