import PaneLayout.Proofs.Refolding
import PaneLayout.Proofs.Settled
import PaneLayout.Proofs.Topology

set_option autoImplicit false

/-!
# Pages lowered from their own layout

Any page comes back from the layout that is read off it. Nothing need be known of its widgets, and
it need not be a page that some layout was lowered to: distinct sections and proper ratios are
enough for the layout to be valid, and its splits are those of the page.
-/

namespace PaneLayout

variable {α : Type}

namespace Decompile

theorem readLeaf_of_unknown {ws : WidgetMap} {id : SectionId} (unknown : ws.get? id = none)
    (s : Schema) (o : DecompileOptions) : readLeaf ws s o id = ⟨.leaf id, [], []⟩ := by
  rw [readLeaf, unknown]

/-- A page of unknown sections is read back as bare leaves. -/
theorem panes_decompile_of_unknown [Scalar α] {n : Native α SectionId} {ws : WidgetMap}
    (unknown : ∀ id ∈ n.leaves, ws.get? id = none) (s : Schema) (o : DecompileOptions) :
    (decompile n ws s o).layout.panes = n.leaves.map .leaf := by
  rw [panes_decompile]
  refine List.map_congr_left fun id hid => ?_
  rw [readLeaf_of_unknown (unknown id hid)]

end Decompile

namespace Layout

/-- Bare leaves have no table and no link to object to. -/
theorem paneViolations_leaf (names : NameIndex) (i : Nat) (id : SectionId) :
    paneViolations names i (.leaf id) = [] := rfl

theorem validate_of_leaves {t : Layout Rat} {ids : List SectionId} (bare : t.panes = ids.map .leaf)
    (distinct : ids.Nodup) (valid : ∀ id ∈ ids, id.isValid = true)
    (splits : splitViolations t = []) : validate (some t) = [] := by
  have sections : t.panes.filterMap Pane.section? = ids := by
    rw [bare]
    exact Pane.filterMap_section?_of_real (by rw [List.map_map]; rfl)
  refine (validate_eq_nil_iff t).2 ⟨?_, splits, fun i p hp => ?_⟩
  · rw [sectionViolations_eq_nil_iff, sections]
    exact ⟨distinct, fun id hid => ⟨valid id hid, List.not_mem_nil⟩⟩
  · rw [bare] at hp
    obtain ⟨id, -, rfl⟩ := List.mem_map.1 (List.mem_of_getElem? hp)
    exact paneViolations_leaf _ i id

end Layout

/-- The page of a layout that recalls the leaves and the splits of `n` is `n` up to its ratios. -/
theorem Native.skeleton_eq_of_recalled {n page : Native Rat SectionId} {t : Layout Rat}
    (splits : t.skeleton = some n.shape.skeleton) (own : t.panes.map Pane.section? = n.leaves.map some)
    (shape : t.shape = some page.shape) (leaves : page.leaves.map some = t.panes.map Pane.section?) :
    page.skeleton = n.skeleton := by
  refine skeleton_eq_of_shape (Option.some.inj ?_) ?_
  · rw [← Layout.skeleton_of_shape shape, splits]
  · exact List.map_injective_iff.2 (Option.some_injective _) (leaves.trans own)

/-- The layout of a page with distinct sections and proper ratios is valid, and it lowers to the
same splits over the same leaves, whether or not chains were flattened. -/
theorem relower_decompile {n : Native Rat SectionId} (distinct : n.leaves.Nodup)
    (valid : ∀ id ∈ n.leaves, id.isValid = true) (proper : n.Proper) (s : Schema)
    (o : DecompileOptions) (tables : TableMap) :
    (decompile n ∅ s o).layout.panes = n.leaves.map .leaf ∧
    Layout.validate (some (decompile n ∅ s o).layout) = [] ∧
    ∃ plan page, Plan.make (some (decompile n ∅ s o).layout) tables = .ok plan ∧
      plan.nativeLayout = .ok page ∧ page.skeleton = n.skeleton := by
  have unknown : ∀ id ∈ n.leaves, (∅ : WidgetMap).get? id = none := fun id _ => rfl
  have bare := Decompile.panes_decompile_of_unknown unknown s o
  have own : (decompile n ∅ s o).layout.panes.map Pane.section? = n.leaves.map some := by
    rw [bare, List.map_map]
    rfl
  have accepted := Layout.validate_of_leaves bare distinct valid
    (Decompile.splitViolations_layoutWith o.flattenChains _ proper)
  have present : ∀ p ∈ (decompile n ∅ s o).layout.panes, p.section?.isSome := by
    rw [bare]
    exact List.forall_mem_map.2 fun id _ => rfl
  obtain ⟨plan, page, made, hpage, leaves, shape⟩ := Layout.exists_page accepted present tables
  exact ⟨bare, accepted, plan, page, made, hpage, Native.skeleton_eq_of_recalled
    (Decompile.skeleton_layoutWith o.flattenChains _ n) own shape leaves⟩

/-- Chains that lean to either side, along one axis and across, with uneven ratios. -/
def Native.leaning : Native Rat SectionId :=
  .split .horizontal (1 / 3)
    (.split .horizontal (9 / 10) (.leaf ⟨4⟩) (.leaf ⟨9⟩))
    (.split .horizontal (1 / 2) (.leaf ⟨2⟩)
      (.split .horizontal (1 / 1000000000) (.split .vertical (2 / 7) (.leaf ⟨7⟩) (.leaf ⟨1⟩))
        (.leaf ⟨3⟩)))

theorem relower_decompile_leaning : (Native.leaning.leaves.Nodup ∧
    (∀ id ∈ Native.leaning.leaves, id.isValid = true) ∧ Native.leaning.Proper) ∧
    ∀ o : DecompileOptions,
      (decompile Native.leaning ∅ .empty o).layout.panes = Native.leaning.leaves.map .leaf ∧
      Layout.validate (some (decompile Native.leaning ∅ .empty o).layout) = [] ∧
      ∃ plan page, Plan.make (some (decompile Native.leaning ∅ .empty o).layout) ∅ = .ok plan ∧
        plan.nativeLayout = .ok page ∧ page.skeleton = Native.leaning.skeleton := by
  have distinct : Native.leaning.leaves.Nodup := by decide
  have valid : ∀ id ∈ Native.leaning.leaves, id.isValid = true := by decide
  have proper : Native.leaning.Proper := by
    unfold Native.Proper
    decide +kernel
  exact ⟨⟨distinct, valid, proper⟩,
    fun o => relower_decompile distinct valid proper .empty o ∅⟩

end PaneLayout
