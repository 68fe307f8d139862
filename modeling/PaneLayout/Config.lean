import PaneLayout.Text.Blank

set_option autoImplicit false

/-!
# Settings of the compiler

The environment may override them. An override counts when it reads `true` or `false` once blanks
around it are gone; any other text leaves the setting as it is.
-/

namespace PaneLayout

structure DecompileOptions where
  /-- A linked widget comes back as a pane with its link, not as a bare leaf. -/
  reconstructLinks : Bool
  /-- Chains of splits along one axis come back as one split. -/
  flattenChains : Bool
  /-- Column types and lineage decide between links that are stored alike. -/
  schemaHints : Bool
deriving DecidableEq, Inhabited

def DecompileOptions.standard : DecompileOptions := ⟨true, false, false⟩

structure CompilerConfig where
  /-- `ListedIn` needs a list-valued column and `FilteredBy` a scalar one. -/
  checkColumnKinds : Bool
  /-- The owner of a `BreakdownOf` link must summarise the table of its source. -/
  checkBreakdownLineage : Bool
  reverse : DecompileOptions
deriving DecidableEq, Inhabited

def CompilerConfig.standard : CompilerConfig := ⟨true, true, .standard⟩

def flag? (s : String) : Option Bool :=
  let t := Text.trim s
  if t == "true" then some true else if t == "false" then some false else none

namespace CompilerConfig

def overrideNames : List String :=
  ["DASHLAYOUT_CHECK_COLUMN_KINDS", "DASHLAYOUT_CHECK_BREAKDOWN_LINEAGE",
    "DASHLAYOUT_RECONSTRUCT_LINKS", "DASHLAYOUT_FLATTEN_CHAINS", "DASHLAYOUT_SCHEMA_HINTS"]

def withOverrides (c : CompilerConfig) (lookup : String → Option String) : CompilerConfig :=
  let set (key : String) (current : Bool) : Bool := ((lookup key).bind flag?).getD current
  ⟨set "DASHLAYOUT_CHECK_COLUMN_KINDS" c.checkColumnKinds,
    set "DASHLAYOUT_CHECK_BREAKDOWN_LINEAGE" c.checkBreakdownLineage,
    ⟨set "DASHLAYOUT_RECONSTRUCT_LINKS" c.reverse.reconstructLinks,
      set "DASHLAYOUT_FLATTEN_CHAINS" c.reverse.flattenChains,
      set "DASHLAYOUT_SCHEMA_HINTS" c.reverse.schemaHints⟩⟩

end CompilerConfig
end PaneLayout
