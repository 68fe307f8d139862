import PaneLayout.Json.Read
import PaneLayout.Text.Blank
import PaneLayout.Yaml.Request

set_option autoImplicit false

/-!
# Layout requests as text

A text is in JSON or in YAML. Where nobody says which, a text whose first character that is not
blank is a brace is JSON.
-/

namespace PaneLayout

inductive Format where
  | json | yaml
deriving DecidableEq

namespace Format

def ofText (text : String) : Format :=
  if (Text.trimStart text.toList).head? = some '\x7b' then json else yaml

def parseMessage : Format → String
  | json => "Failed to parse layout JSON"
  | yaml => "Failed to parse layout YAML"

end Format

namespace LayoutRequest

def ofJson? (text : String) : Option (LayoutRequest Float) := do ofDatum? (← Json.read? text)

/-- The request, or the format that the text does not follow. -/
def parse : Format → String → Except Format (LayoutRequest Float)
  | .json, text => match ofJson? text with
    | some r => .ok r
    | none => .error .json
  | .yaml, text => match ofYaml? text with
    | some r => .ok r
    | none => .error .yaml

def ofText (text : String) : Except Format (LayoutRequest Float) := parse (.ofText text) text

end LayoutRequest
end PaneLayout
