import PaneLayout.Datum.Layout
import PaneLayout.Native.Mutation

set_option autoImplicit false

/-!
# Native pages and mutations as data

Both are tagged unions. A ratio that is not finite is written as nothing and so is not read back.
-/

namespace PaneLayout

namespace Axis

def key : Axis → String
  | horizontal => "horizontal"
  | vertical => "vertical"

def all : List Axis := [horizontal, vertical]
def datum (a : Axis) : Datum := .text a.key
def ofDatum? (mode : Mode) (d : Datum) : Option Axis := d.oneOf? mode all key

end Axis

namespace Native

section
variable {α ι : Type} [Scalar α]

/-- Over any leaves that have a form as data. -/
def datumWith (leafDatum : ι → Datum) : Native α ι → Datum
  | leaf id => .record [("kind", .text "leaf"), ("section", leafDatum id)]
  | split axis ratio a b =>
    .record [("kind", .text "split"), ("axis", axis.datum), ("ratio", Scalar.datum ratio),
      ("first", datumWith leafDatum a), ("second", datumWith leafDatum b)]

def datum (n : Native α SectionId) : Datum := n.datumWith SectionId.datum

end

def ofDatumWithin? : Nat → Mode → Datum → Option (Native Float SectionId)
  | 0, _, _ => none
  | levels + 1, mode, d => do
    let (kind, body) ← d.tagged? mode "kind" ["leaf", "split"]
    if kind = 0 then
      let fs ← Fields.ofDatum? ["section"] body
      return leaf (← fs.required 0 SectionId.ofDatum?)
    else
      let fs ← Fields.ofDatum? ["axis", "ratio", "first", "second"] body
      return split (← fs.required 0 (Axis.ofDatum? .gathered)) (← fs.required 1 Datum.float?)
        (← fs.required 2 (ofDatumWithin? levels .gathered))
        (← fs.required 3 (ofDatumWithin? levels .gathered))

def ofDatum? (mode : Mode) (d : Datum) : Option (Native Float SectionId) :=
  ofDatumWithin? d.depth mode d

end Native

namespace MutationKind

def all : List MutationKind := [setLayout, setLink, setSectionInfo]
def datum (k : MutationKind) : Datum := .text k.text
def ofDatum? (mode : Mode) (d : Datum) : Option MutationKind := d.oneOf? mode all text

end MutationKind

namespace Mutation

def datum {α : Type} [Scalar α] : Mutation α → Datum
  | setLayout view layout =>
    .record [("action", .text "set_layout"), ("view", view.datum), ("layout", layout.datum)]
  | setLink id link =>
    .record [("action", .text "set_link"), ("section", id.datum), ("link", link.datum)]
  | setSectionInfo id title description =>
    .record ([("action", .text "set_section_info"), ("section", id.datum)]
      ++ Datum.optionalField "title" (title.map .text)
      ++ Datum.optionalField "description" (description.map .text))

def ofDatum? (mode : Mode) (d : Datum) : Option (Mutation Float) := do
  let (kind, body) ← d.tagged? mode "action" (MutationKind.all.map MutationKind.text)
  match ← MutationKind.all[kind]? with
  | .setLayout =>
    let fs ← Fields.ofDatum? ["view", "layout"] body
    return setLayout (← fs.required 0 ViewRef.ofDatum?)
      (← fs.required 1 (Native.ofDatum? .gathered))
  | .setLink =>
    let fs ← Fields.ofDatum? ["section", "link"] body
    return setLink (← fs.required 0 SectionId.ofDatum?) (← fs.required 1 LinkTuple.ofDatum?)
  | .setSectionInfo =>
    let fs ← Fields.ofDatum? ["section", "title", "description"] body
    return setSectionInfo (← fs.required 0 SectionId.ofDatum?) (← fs.optional 1 Datum.text?)
      (← fs.optional 2 Datum.text?)

end Mutation
end PaneLayout
