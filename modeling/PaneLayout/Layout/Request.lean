import PaneLayout.Layout.Basic
import PaneLayout.TableMap

set_option autoImplicit false

/-!
# Requests

What a caller asks for: a page, the tables by name, and the layout.
-/

namespace PaneLayout

/-- Without a view the first new widget opens a page. -/
structure LayoutRequest (α : Type) where
  view : Option ViewRef
  tables : TableMap
  layout : Option (Layout α)

end PaneLayout
