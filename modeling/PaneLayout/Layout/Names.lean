import PaneLayout.Layout.Basic

set_option autoImplicit false

/-!
# Names of panes

What a pane name in a link denotes.

A key is looked up among names, then titles, then the tables of new panes; the first of these that
knows it decides, and it is ambiguous there when several panes carry it.
-/

namespace PaneLayout

inductive NameMatch where
  | unique (index : Nat)
  | ambiguous (candidates : List Nat)
  | missing
deriving DecidableEq, Inhabited

def NameMatch.unique? : NameMatch → Option Nat
  | .unique i => some i
  | _ => none

/-- The panes that carry a key, in the order in which they were added. -/
abbrev NameTier := SortedMap String (List Nat)

namespace NameTier

/-- The empty text names nothing. -/
def add (tier : NameTier) (index : Nat) : Option String → NameTier
  | some key =>
    if key = "" then tier
    else
      let slot := (tier.get? key).getD []
      if slot.contains index then tier else tier.insert key (slot ++ [index])
  | none => tier

def resolve? (tier : NameTier) (key : String) : Option NameMatch :=
  match tier.get? key with
  | some [i] => some (.unique i)
  | some (i :: j :: is) => some (.ambiguous (i :: j :: is))
  | _ => none

end NameTier

structure NameIndex where
  names : NameTier
  titles : NameTier
  tables : NameTier

namespace NameIndex

def empty : NameIndex := ⟨∅, ∅, ∅⟩

def add (index : NameIndex) (i : Nat) (p : Pane) : NameIndex :=
  ⟨NameTier.add index.names i p.name, NameTier.add index.titles i p.title,
    NameTier.add index.tables i p.table?⟩

def addFrom (index : NameIndex) (i : Nat) : List Pane → NameIndex
  | [] => index
  | p :: ps => addFrom (index.add i p) (i + 1) ps

def ofPanes (ps : List Pane) : NameIndex := empty.addFrom 0 ps

def ofLayout {α : Type} (t : Layout α) : NameIndex := ofPanes t.panes

def resolve (index : NameIndex) (key : String) : NameMatch :=
  (NameTier.resolve? index.names key <|> NameTier.resolve? index.titles key
    <|> NameTier.resolve? index.tables key).getD .missing

end NameIndex
end PaneLayout
