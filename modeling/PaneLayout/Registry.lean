import PaneLayout.Layout.Names

set_option autoImplicit false

/-!
# Panes and their sections

The panes of one compilation and the sections they have so far.

A pane of an existing section has its id from the start; a new pane holds a placeholder until its
widget is created. A link waits in the queue until its owner and its target both have ids.
-/

namespace PaneLayout

structure PlaceholderId where
  raw : UInt32
deriving DecidableEq, Inhabited

namespace PlaceholderId

def toNat (p : PlaceholderId) : Nat := p.raw.toNat
def text (p : PlaceholderId) : String := "p" ++ decimal p.toNat

theorem toNat_inj {a b : PlaceholderId} (h : a.toNat = b.toNat) : a = b := by
  cases a; cases b; simpa [toNat, UInt32.toNat_inj] using h

instance : KeyOrder PlaceholderId := .ofRank toNat toNat_inj

end PlaceholderId

inductive PaneRef where
  | real (id : SectionId)
  | placeholder (p : PlaceholderId)
deriving DecidableEq, Inhabited

def PaneRef.text : PaneRef → String
  | real id => id.text
  | placeholder p => p.text

structure PendingLink where
  ownerIndex : Nat
  owner : PaneRef
  target : LinkTarget
  link : Link
deriving DecidableEq, Inhabited

structure Registry where
  panes : List PaneRef
  resolved : SortedMap PlaceholderId SectionId
  names : NameIndex
  known : List SectionId
  pending : List PendingLink
  lastPlaceholder : UInt32

namespace Registry

def empty : Registry := ⟨[], ∅, .empty, [], [], 0⟩

def paneCount (r : Registry) : Nat := r.panes.length

/-- Adds a pane that has no section and no names. -/
def allocate (r : Registry) : PaneRef × Registry :=
  let p := r.lastPlaceholder + 1
  (.placeholder ⟨p⟩, { r with panes := r.panes ++ [.placeholder ⟨p⟩], lastPlaceholder := p })

/-- Adds the next pane in traversal order. -/
def register (r : Registry) (p : Pane) : PaneRef × Registry :=
  let r := { r with names := r.names.add r.paneCount p }
  match p.section? with
  | some id => (.real id, { r with panes := r.panes ++ [.real id], known := id :: r.known })
  | none => r.allocate

/-- Records a section that exists outside the tree. -/
def markKnown (r : Registry) (id : SectionId) : Registry := { r with known := id :: r.known }

def resolve (r : Registry) (p : PlaceholderId) (id : SectionId) : Registry :=
  { r with resolved := r.resolved.insert p id, known := id :: r.known }

def lookup (r : Registry) : PaneRef → Option SectionId
  | .real id => some id
  | .placeholder p => r.resolved.get? p

/-- The pane of the tree that a target denotes; for an id, the first pane that has it. -/
def targetPane? (r : Registry) : LinkTarget → Option Nat
  | .name key => (r.names.resolve key).unique?
  | .id id => r.panes.findIdx? fun p => r.lookup p = some id

def lookupTarget (r : Registry) : LinkTarget → Option SectionId
  | .name key => ((r.names.resolve key).unique?.bind (r.panes[·]?)).bind r.lookup
  | .id id => if r.known.contains id then some id else none

def isResolvable (r : Registry) (l : PendingLink) : Bool :=
  (r.lookup l.owner).isSome && (r.lookupTarget l.target).isSome

def defer (r : Registry) (l : PendingLink) : Registry := { r with pending := r.pending ++ [l] }

/-- Takes every link out of the queue that can be resolved now. -/
def drain (r : Registry) : List PendingLink × Registry :=
  (r.pending.filter r.isResolvable,
    { r with pending := r.pending.filter fun l => !r.isResolvable l })

end Registry
end PaneLayout
