import PaneLayout.Ident

set_option autoImplicit false

/-!
# Names of tables

Table names and the references a caller gives them.

Several names may share a reference; the first of them in name order is the one shown.
-/

namespace PaneLayout

abbrev TableMap := SortedMap String TableRef

namespace TableMap

def nameOf (tables : TableMap) (t : TableRef) : Option String :=
  (tables.toList.find? fun e => e.2 == t).map (·.1)

/-- A table without a name is shown by its number. -/
def displayName (tables : TableMap) (t : TableRef) : String := (nameOf tables t).getD t.text

end TableMap
end PaneLayout
