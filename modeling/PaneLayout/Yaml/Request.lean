import PaneLayout.Datum.Config
import PaneLayout.Datum.Layout
import PaneLayout.Yaml.View

set_option autoImplicit false

/-!
# Layout requests and settings in YAML

An empty text asks for nothing and leaves the settings as they are.
-/

namespace PaneLayout

open Yaml

namespace LayoutRequest

/-- Names of tables are texts whatever they look like. Of a name that is repeated the last table
counts. -/
def tablesOfNode (tree : Tree) (n : Node) : View TableMap := do
  let es ← View.entries tree n
  return .ofList (← es.mapM fun e => do
    return (← View.text tree e.1, ⟨← View.word tree e.2⟩))

def layoutOfNode (tree : Tree) (n : Node) : View (Layout Float) := do
  Layout.ofDatum? .gathered (← View.taggedDatum tree "kind" n)

def ofTree (tree : Tree) : Option Node → View (LayoutRequest Float)
  | none => return ⟨none, ∅, none⟩
  | some n => do
    let fs ← View.fields tree fieldNames (← View.entries tree n)
    return ⟨(← View.defaulted fs 0 (View.option tree (View.word tree)) none).map (⟨·⟩),
      ← View.defaulted fs 1 (tablesOfNode tree) ∅,
      ← View.defaulted fs 2 (View.option tree (layoutOfNode tree)) none⟩

def ofYaml? (text : String) : Option (LayoutRequest Float) := View.read? ofTree text

end LayoutRequest

namespace DecompileOptions

def ofNode (tree : Tree) (n : Node) : View DecompileOptions := do
  let fs ← View.fields tree fieldNames (← View.entries tree n)
  return ⟨← View.defaulted fs 0 (View.bool tree) standard.reconstructLinks,
    ← View.defaulted fs 1 (View.bool tree) standard.flattenChains,
    ← View.defaulted fs 2 (View.bool tree) standard.schemaHints⟩

end DecompileOptions

namespace CompilerConfig

def ofTree (tree : Tree) : Option Node → View CompilerConfig
  | none => return standard
  | some n => do
    let fs ← View.fields tree fieldNames (← View.entries tree n)
    return ⟨← View.defaulted fs 0 (View.bool tree) standard.checkColumnKinds,
      ← View.defaulted fs 1 (View.bool tree) standard.checkBreakdownLineage,
      ← View.defaulted fs 2 (DecompileOptions.ofNode tree) standard.reverse⟩

def ofYaml? (text : String) : Option CompilerConfig := View.read? ofTree text

end CompilerConfig
end PaneLayout
