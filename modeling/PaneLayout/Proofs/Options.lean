import Mathlib.Data.List.Basic
import PaneLayout.Proofs.Pinning
import PaneLayout.Proofs.Topology

set_option autoImplicit false

/-!
# What the options decide

A page that is decompiled under two sets of options. Which widgets and which links are reported, and
which sections the panes have, depends on none of them. How the splits are nested depends on
flattening alone and what is guessed of the links on the hints alone. The panes that are more than
bare leaves are those that have a link to show and are asked to show it.
-/

namespace PaneLayout

variable {α : Type}

/-! ## Frames -/

namespace Layout

theorem frameOf_length (cs : List (Layout α)) : (frameOf cs).length = cs.length := by
  induction cs with
  | nil => rfl
  | cons c cs ih => rw [frameOf, List.length_cons, List.length_cons, ih]

variable [Scalar α]

theorem shares_frame (t : Layout α) : t.frame.shares = t.shares := by
  cases t with
  | pane p => rfl
  | split axis cs ws =>
    rw [frame, shares, shares, weights, weights, children, children, frameOf_length]

end Layout

namespace Decompile

section
variable [Scalar α]

theorem frame_join (flatten : Bool) (axis : Axis) (ratio : α) (first second : Layout α) :
    (join flatten axis ratio first second).frame =
      join flatten axis ratio first.frame second.frame := by
  cases second with
  | pane p => rfl
  | split axis' cs ws =>
    have shares := (Layout.split axis' cs ws).shares_frame
    rw [Layout.frame] at shares
    unfold join
    rw [Layout.frame]
    dsimp only
    split
    · rw [joined, joined, shares, Layout.frame, Layout.frameOf]
    · rfl

/-- The splits and their weights come about without a look at the panes. -/
theorem frame_layoutWith (flatten : Bool) (leaf : SectionId → Pane) (n : Native α SectionId) :
    (layoutWith flatten leaf n).frame = layoutWith flatten (fun _ => .leaf ⟨0⟩) n := by
  induction n with
  | leaf id => rfl
  | split axis ratio a b iha ihb => rw [layoutWith, frame_join, iha, ihb, layoutWith]

end

/-! ## Leaves -/

/-- The link that the widget of a leaf stores, after the section that owns it. -/
def storedLink (ws : WidgetMap) (id : SectionId) : Option (SectionId × LinkTuple) :=
  (ws.get? id).bind fun w => w.link.map (w.id, ·)

variable (ws : WidgetMap) (s : Schema) (o : DecompileOptions) (id : SectionId)

theorem summaries_readLeaf :
    (readLeaf ws s o id).summaries = ((ws.get? id).map (summary s id)).toList := by
  unfold readLeaf
  cases ws.get? id with
  | none => rfl
  | some w =>
    dsimp only
    cases w.link <;> rfl

theorem links_readLeaf : (readLeaf ws s o id).links =
    ((ws.get? id).bind fun w => w.link.map (recover ws s o.schemaHints w)).toList := by
  unfold readLeaf
  cases known : ws.get? id with
  | none => rfl
  | some w => cases stored : w.link <;> simp [stored]

theorem stored_links_readLeaf :
    (readLeaf ws s o id).links.map (fun r => (r.id, r.raw)) = (storedLink ws id).toList := by
  rw [links_readLeaf, storedLink]
  cases ws.get? id with
  | none => rfl
  | some w => cases stored : w.link <;> simp [stored, recover]

theorem pane_readLeaf_eq_leaf_iff : (readLeaf ws s o id).pane = .leaf id ↔
    storedLink ws id = none ∨ o.reconstructLinks = false := by
  unfold readLeaf storedLink
  cases ws.get? id with
  | none => simp
  | some w =>
    cases stored : w.link with
    | none => simp [stored]
    | some raw => cases o.reconstructLinks <;> simp [stored]

/-- Flattening is nothing to a leaf. -/
theorem pane_readLeaf_congr {o o' : DecompileOptions}
    (shown : o.reconstructLinks = o'.reconstructLinks) (hints : o.schemaHints = o'.schemaHints) :
    (readLeaf ws s o id).pane = (readLeaf ws s o' id).pane := by
  unfold readLeaf
  rw [shown, hints]

end Decompile

/-! ## Pages -/

section
variable [Scalar α] (n : Native α SectionId) (ws : WidgetMap) (s : Schema) (o : DecompileOptions)

theorem widgets_decompile : (decompile n ws s o).widgets =
    n.leaves.filterMap fun id => (ws.get? id).map (Decompile.summary s id) := by
  rw [List.filterMap_eq_flatMap_toList]
  exact List.flatMap_congr fun id _ => Decompile.summaries_readLeaf ws s o id

theorem links_decompile : (decompile n ws s o).links = n.leaves.filterMap fun id =>
    (ws.get? id).bind fun w => w.link.map (Decompile.recover ws s o.schemaHints w) := by
  rw [List.filterMap_eq_flatMap_toList]
  exact List.flatMap_congr fun id _ => Decompile.links_readLeaf ws s o id

theorem stored_links_decompile : (decompile n ws s o).links.map (fun r => (r.id, r.raw)) =
    n.leaves.filterMap (Decompile.storedLink ws) := by
  rw [List.filterMap_eq_flatMap_toList, decompile, List.map_flatMap]
  exact List.flatMap_congr fun id _ => Decompile.stored_links_readLeaf ws s o id

theorem frame_decompile : (decompile n ws s o).layout.frame =
    Decompile.layoutWith o.flattenChains (fun _ => .leaf ⟨0⟩) n :=
  Decompile.frame_layoutWith o.flattenChains _ n

/-- Two sets of options: what they agree on decides how far the results agree. -/
theorem decompile_options (o' : DecompileOptions) :
    let d := decompile n ws s o
    let d' := decompile n ws s o'
    (d.widgets = n.leaves.filterMap (fun id => (ws.get? id).map (Decompile.summary s id)) ∧
      d'.widgets = d.widgets) ∧
    (d.links.map (fun r => (r.id, r.raw)) = n.leaves.filterMap (Decompile.storedLink ws) ∧
      d'.links.map (fun r => (r.id, r.raw)) = d.links.map fun r => (r.id, r.raw)) ∧
    (d.layout.panes.map Pane.section? = n.leaves.map some ∧
      d'.layout.panes.map Pane.section? = d.layout.panes.map Pane.section?) ∧
    (o.schemaHints = o'.schemaHints → d'.links = d.links) ∧
    (o.flattenChains = o'.flattenChains → d'.layout.frame = d.layout.frame) ∧
    (o.reconstructLinks = o'.reconstructLinks → o.schemaHints = o'.schemaHints →
      d'.layout.panes = d.layout.panes) ∧
    ∀ (i : Nat) id, n.leaves[i]? = some id → (d.layout.panes[i]? = some (.leaf id) ↔
      Decompile.storedLink ws id = none ∨ o.reconstructLinks = false) := by
  intro d d'
  refine ⟨⟨widgets_decompile n ws s o, ?_⟩, ⟨stored_links_decompile n ws s o, ?_⟩,
    ⟨Decompile.sections_decompile n ws s o, ?_⟩, fun hints => ?_, fun flatten => ?_, fun shown hints => ?_,
    fun i id hi => ?_⟩
  · rw [widgets_decompile, widgets_decompile]
  · rw [stored_links_decompile, stored_links_decompile]
  · rw [Decompile.sections_decompile, Decompile.sections_decompile]
  · rw [links_decompile, links_decompile, hints]
  · rw [frame_decompile, frame_decompile, flatten]
  · rw [Decompile.panes_decompile, Decompile.panes_decompile]
    exact List.map_congr_left fun id _ => (Decompile.pane_readLeaf_congr ws s id shown hints).symm
  · rw [Decompile.panes_decompile, List.getElem?_map, hi, Option.map_some, Option.some.injEq]
    exact Decompile.pane_readLeaf_eq_leaf_iff ws s o id

end
end PaneLayout
