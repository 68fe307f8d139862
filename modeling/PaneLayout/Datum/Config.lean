import PaneLayout.Config
import PaneLayout.Datum.Fields

set_option autoImplicit false

/-!
# Compiler settings as data

Every setting has a standard value and may be left out.
-/

namespace PaneLayout

namespace DecompileOptions

def datum (o : DecompileOptions) : Datum :=
  .record [("reconstruct_links", .bool o.reconstructLinks),
    ("flatten_chains", .bool o.flattenChains), ("schema_hints", .bool o.schemaHints)]

def fieldNames : List String := ["reconstruct_links", "flatten_chains", "schema_hints"]

def ofDatum? (d : Datum) : Option DecompileOptions := do
  let fs ← Fields.ofDatum? fieldNames d
  return ⟨← fs.defaulted 0 Datum.bool? standard.reconstructLinks,
    ← fs.defaulted 1 Datum.bool? standard.flattenChains,
    ← fs.defaulted 2 Datum.bool? standard.schemaHints⟩

end DecompileOptions

namespace CompilerConfig

def datum (c : CompilerConfig) : Datum :=
  .record [("check_column_kinds", .bool c.checkColumnKinds),
    ("check_breakdown_lineage", .bool c.checkBreakdownLineage), ("reverse", c.reverse.datum)]

def fieldNames : List String := ["check_column_kinds", "check_breakdown_lineage", "reverse"]

def ofDatum? (d : Datum) : Option CompilerConfig := do
  let fs ← Fields.ofDatum? fieldNames d
  return ⟨← fs.defaulted 0 Datum.bool? standard.checkColumnKinds,
    ← fs.defaulted 1 Datum.bool? standard.checkBreakdownLineage,
    ← fs.defaulted 2 DecompileOptions.ofDatum? standard.reverse⟩

end CompilerConfig
end PaneLayout
