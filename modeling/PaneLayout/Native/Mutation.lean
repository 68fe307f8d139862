import PaneLayout.Native.Basic

set_option autoImplicit false

/-!
# Mutations

Changes to a document, applied in bundles.
-/

namespace PaneLayout

inductive MutationKind where
  | setLayout | setLink | setSectionInfo
deriving DecidableEq, Inhabited

def MutationKind.text : MutationKind → String
  | setLayout => "set_layout"
  | setLink => "set_link"
  | setSectionInfo => "set_section_info"

inductive Mutation (α : Type) where
  | setLayout (view : ViewRef) (layout : Native α SectionId)
  | setLink (id : SectionId) (link : LinkTuple)
  | setSectionInfo (id : SectionId) (title description : Option String)
deriving DecidableEq, Inhabited

def Mutation.kind {α : Type} : Mutation α → MutationKind
  | setLayout _ _ => .setLayout
  | setLink _ _ => .setLink
  | setSectionInfo _ _ _ => .setSectionInfo

end PaneLayout
