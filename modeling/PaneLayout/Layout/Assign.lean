import PaneLayout.Layout.Names

set_option autoImplicit false

/-!
# Assigned sections

Giving the new panes of a layout the sections that were created for them.

Every new pane becomes an existing one, in order. A link that names a pane of the tree is pinned to
the section of that pane, since the name may mean something else once the table names are gone.
-/

namespace PaneLayout

/-- There must be one section for each new pane. -/
structure AssignError where
  supplied : Nat
  panes : Nat
deriving DecidableEq

def AssignError.message (e : AssignError) : String :=
  decimal e.supplied ++ " section ids supplied for " ++ decimal e.panes ++ " new panes"

namespace Pane

/-- The sections of the panes once `ids` are given out. -/
def assignedSections : List Pane → List SectionId → List SectionId
  | [], _ => []
  | p :: ps, ids => match p.section?, ids with
    | some id, ids => id :: assignedSections ps ids
    | none, id :: ids => id :: assignedSections ps ids
    | none, [] => []

def pin (names : NameIndex) (sections : List SectionId) (l : Link) : Link :=
  match l.source with
  | .id _ => l
  | .name key => match (names.resolve key).unique?.bind (sections[·]?) with
    | some id => l.withSource (.id id)
    | none => l

/-- The pane with its section, and the ids that are left. -/
def settle (f : PaneInfo → PaneInfo) : Pane → List SectionId → Pane × List SectionId
  | new _ _ info, id :: ids => (existing id (f info), ids)
  | p, ids => (p.mapInfo f, ids)

end Pane

namespace Layout

variable {α : Type}

mutual

def settle (f : PaneInfo → PaneInfo) : Layout α → List SectionId → Layout α × List SectionId
  | pane p, ids => let (p, ids) := p.settle f ids; (pane p, ids)
  | split axis cs ws, ids => let (cs, ids) := settleOf f cs ids; (split axis cs ws, ids)

def settleOf (f : PaneInfo → PaneInfo) :
    List (Layout α) → List SectionId → List (Layout α) × List SectionId
  | [], ids => ([], ids)
  | c :: cs, ids =>
    let (c, ids) := settle f c ids
    let (cs, ids) := settleOf f cs ids
    (c :: cs, ids)

end

def newPanes (t : Layout α) : List Pane := t.panes.filter Pane.isNew

def withSections (t : Layout α) (ids : List SectionId) : Except AssignError (Layout α) :=
  if t.newPanes.length = ids.length then
    let pin := Pane.pin (.ofLayout t) (Pane.assignedSections t.panes ids)
    .ok (t.settle (fun i => { i with link := i.link.map pin }) ids).1
  else .error ⟨ids.length, t.newPanes.length⟩

end Layout
end PaneLayout
