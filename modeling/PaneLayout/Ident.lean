import PaneLayout.SortedMap

set_option autoImplicit false

/-!
# Identifiers

Identifiers of sections, tables, pages and columns: 32-bit numbers, one type each.

Their printed forms are `#4`, `t4` and `v4`. Zero is no section, and as a column it stands for the
row id.
-/

namespace PaneLayout

structure SectionId where
  raw : UInt32
deriving DecidableEq, Inhabited

structure TableRef where
  raw : UInt32
deriving DecidableEq, Inhabited

structure ViewRef where
  raw : UInt32
deriving DecidableEq, Inhabited

structure ColumnRef where
  raw : UInt32
deriving DecidableEq, Inhabited

def decimal (n : Nat) : String := Nat.repr n

namespace SectionId

def ofNat (n : Nat) : SectionId := ⟨UInt32.ofNat n⟩
def toNat (id : SectionId) : Nat := id.raw.toNat
def isValid (id : SectionId) : Bool := id.raw != 0
def text (id : SectionId) : String := "#" ++ decimal id.toNat

theorem toNat_inj {a b : SectionId} (h : a.toNat = b.toNat) : a = b := by
  cases a; cases b; simpa [toNat, UInt32.toNat_inj] using h

instance : KeyOrder SectionId := .ofRank toNat toNat_inj

end SectionId

namespace TableRef

def ofNat (n : Nat) : TableRef := ⟨UInt32.ofNat n⟩
def toNat (t : TableRef) : Nat := t.raw.toNat
def text (t : TableRef) : String := "t" ++ decimal t.toNat

theorem toNat_inj {a b : TableRef} (h : a.toNat = b.toNat) : a = b := by
  cases a; cases b; simpa [toNat, UInt32.toNat_inj] using h

instance : KeyOrder TableRef := .ofRank toNat toNat_inj

end TableRef

namespace ViewRef

def ofNat (n : Nat) : ViewRef := ⟨UInt32.ofNat n⟩
def toNat (v : ViewRef) : Nat := v.raw.toNat
def text (v : ViewRef) : String := "v" ++ decimal v.toNat

theorem toNat_inj {a b : ViewRef} (h : a.toNat = b.toNat) : a = b := by
  cases a; cases b; simpa [toNat, UInt32.toNat_inj] using h

instance : KeyOrder ViewRef := .ofRank toNat toNat_inj

end ViewRef

namespace ColumnRef

/-- No column, and also the row id: a link by row id stores this. -/
def unset : ColumnRef := ⟨0⟩

def ofNat (n : Nat) : ColumnRef := ⟨UInt32.ofNat n⟩
def toNat (c : ColumnRef) : Nat := c.raw.toNat
def isSet (c : ColumnRef) : Bool := c.raw != 0

end ColumnRef

end PaneLayout
