import PaneLayout.Decompile
import PaneLayout.Proofs.Outcome
import PaneLayout.Proofs.Outline
import PaneLayout.Proofs.Validity
import PaneLayout.Scalar.Rational

set_option autoImplicit false

/-!
# A layout from its own page

What comes back when the page of a layout over existing sections is decompiled: the same sections in
the same order, under the outline of the layout in one of its two normal forms. Without flattening
it is the binary one, since a page has splits of two only. With flattening it is the spliced one.
-/

namespace PaneLayout

variable {α : Type}

/-! ## Joining outlines -/

namespace Outline

/-- What becomes of the outlines of the halves of a split. -/
def join (flatten : Bool) (axis : Axis) (a b : Outline) : Outline :=
  split axis (a :: if flatten then absorb axis [b] else [b])

def joinAll (flatten : Bool) (axis : Axis) : List Outline → Outline
  | [] => split axis []
  | [o] => o
  | o :: o' :: os => join flatten axis o (joinAll flatten axis (o' :: os))

theorem joinAll_plain (axis : Axis) (os : List Outline) : joinAll false axis os = chain axis os := by
  induction os with
  | nil => rfl
  | cons o os ih =>
    cases os with
    | nil => rfl
    | cons o' os => rw [joinAll, ih]; rfl

/-- Of a chain of two or more only the last child is taken in, at whatever height it is found. -/
theorem joinAll_flat (axis : Axis) (o o' : Outline) (os : List Outline) :
    joinAll true axis (o :: o' :: os) = split axis (absorb axis (o :: o' :: os)) := by
  induction os generalizing o o' with
  | nil => cases o <;> rfl
  | cons o'' os ih =>
    have taken : absorb axis [split axis (absorb axis (o' :: o'' :: os))] =
        absorb axis (o' :: o'' :: os) := absorb_same axis [] _
    have front : absorb axis (o :: o' :: o'' :: os) = o :: absorb axis (o' :: o'' :: os) :=
      absorb_append axis [o] (by simp)
    rw [joinAll, ih, join, if_pos rfl, taken, front]

end Outline

/-! ## The outline of a page -/

def Native.outline (flatten : Bool) : Native α Unit → Outline
  | .leaf _ => .pane
  | .split axis _ a b => .join flatten axis (a.outline flatten) (b.outline flatten)

namespace Decompile

variable [Scalar α]

theorem outline_join (flatten : Bool) (axis : Axis) (ratio : α) (first second : Layout α) :
    (join flatten axis ratio first second).outline =
      .join flatten axis first.outline second.outline := by
  cases second with
  | pane p => cases flatten <;> rfl
  | split axis' cs ws =>
    cases flatten with
    | false => rfl
    | true =>
      by_cases same : axis = axis'
      · simp [join, joined, same, Layout.outline, Layout.outlineOf, Outline.join, Outline.absorb]
      · simp [join, same, Layout.outline, Layout.outlineOf, Outline.join, Outline.absorb]

theorem outline_layoutWith (flatten : Bool) (leaf : SectionId → Pane) (n : Native α SectionId) :
    (layoutWith flatten leaf n).outline = n.shape.outline flatten := by
  induction n with
  | leaf id => rfl
  | split axis ratio a b iha ihb => rw [layoutWith, outline_join, iha, ihb]; rfl

theorem panes_join (flatten : Bool) (axis : Axis) (ratio : α) (first second : Layout α) :
    (join flatten axis ratio first second).panes = first.panes ++ second.panes := by
  cases second with
  | pane p => simp [join, Layout.panes, Layout.panesOf]
  | split axis' cs ws =>
    unfold join joined
    dsimp only
    split <;> simp [Layout.panes, Layout.panesOf]

theorem panes_layoutWith (flatten : Bool) (leaf : SectionId → Pane) (n : Native α SectionId) :
    (layoutWith flatten leaf n).panes = n.leaves.map leaf := by
  induction n with
  | leaf id => rfl
  | split axis ratio a b iha ihb =>
    rw [layoutWith, panes_join, iha, ihb, Native.leaves, List.map_append]

omit [Scalar α] in
theorem section?_readLeaf (ws : WidgetMap) (s : Schema) (o : DecompileOptions) (id : SectionId) :
    (readLeaf ws s o id).pane.section? = some id := by
  unfold readLeaf
  cases ws.get? id with
  | none => rfl
  | some w =>
    dsimp only
    cases w.link with
    | none => rfl
    | some raw =>
      dsimp only
      split <;> rfl

section
variable (n : Native α SectionId) (ws : WidgetMap) (s : Schema) (o : DecompileOptions)

theorem panes_decompile : (decompile n ws s o).layout.panes =
    n.leaves.map fun id => (readLeaf ws s o id).pane := panes_layoutWith o.flattenChains _ n

theorem sections_decompile :
    (decompile n ws s o).layout.panes.map Pane.section? = n.leaves.map some := by
  rw [panes_decompile, List.map_map]
  exact List.map_congr_left fun id _ => section?_readLeaf ws s o id

end

end Decompile

/-! ## The outline of a layout's page -/

namespace Native

variable [Scalar α]

theorem outline_chainWeighted (flatten : Bool) (axis : Axis) {cs : List (Native α Unit × α)}
    {n : Native α Unit} {w : α} (h : chainWeighted axis cs = some (n, w)) :
    n.outline flatten = .joinAll flatten axis (cs.map fun c => c.1.outline flatten) := by
  induction cs generalizing n w with
  | nil => cases h
  | cons c cs ih =>
    rcases chainWeighted_cons_cases h with ⟨rfl, rfl, -⟩ | ⟨tail, under, ht, rfl, -⟩
    · rfl
    · cases cs with
      | nil => cases ht
      | cons c' cs =>
        rw [outline, ih ht]
        rfl

theorem outline_chain (flatten : Bool) {axis : Axis} {ns : List (Native α Unit)} {ws : List α}
    {n : Native α Unit} (len : ws.length = ns.length) (h : chain axis ns ws = some n) :
    n.outline flatten = .joinAll flatten axis (ns.map (outline flatten)) := by
  obtain ⟨⟨m, w⟩, hm, rfl⟩ := Option.map_eq_some_iff.1 h
  have firsts : (ns.zip ws).map Prod.fst = ns := List.map_fst_zip (by omega)
  rw [outline_chainWeighted flatten axis hm]
  conv => rhs; rw [← firsts]
  rw [List.map_map]
  rfl

end Native

namespace Outline

/-- The normal form that comes back, by whether chains are flattened. -/
def normal (flatten : Bool) (o : Outline) : Outline := if flatten then o.splice else o.binary

theorem joinAll_normal (flatten : Bool) (axis : Axis) {os : List Outline} (two : 2 ≤ os.length) :
    joinAll flatten axis (os.map (normal flatten)) = (split axis os).normal flatten := by
  cases flatten with
  | false =>
    change joinAll false axis (os.map binary) = (split axis os).binary
    rw [joinAll_plain, binary, binaryOf_eq_map]
  | true =>
    change joinAll true axis (os.map splice) = (split axis os).splice
    rw [splice, spliceOf_eq_map]
    match os, two with
    | o :: o' :: os, _ => exact joinAll_flat axis o.splice o'.splice (os.map splice)

end Outline

namespace Layout

mutual

theorem branching_outline : ∀ {t : Layout α}, t.Branching → t.outline.Branching
  | pane _, _ => trivial
  | split axis cs ws, h => by
    refine ⟨?_, branchingOf_outlineOf h.2⟩
    rw [outlineOf_eq_map, Ne, List.map_eq_nil_iff]
    exact h.1

theorem branchingOf_outlineOf :
    ∀ {cs : List (Layout α)}, BranchingOf cs → Outline.BranchingOf (outlineOf cs)
  | [], _ => trivial
  | _ :: _, h => ⟨branching_outline h.1, branchingOf_outlineOf h.2⟩

end

variable [Scalar α]

mutual

/-- The page of a layout has the outline of the layout, in normal form. -/
theorem outline_shape (flatten : Bool) : ∀ {t : Layout α} {n : Native α Unit},
    splitViolations t = [] → t.shape = some n → n.outline flatten = t.outline.normal flatten
  | pane _, n, _, h => by
    obtain rfl := Option.some.inj h
    cases flatten <;> rfl
  | split axis cs ws, n, valid, h => by
    rw [splitViolations, List.append_eq_nil_iff] at valid
    obtain ⟨ns, hns, chain⟩ := Option.bind_eq_some_iff.1 h
    have two := two_le_of_shapeViolations valid.1
    have shares : (sharesOf ws cs.length).length = ns.length := by
      rw [sharesOf_length, shapeOf_length hns]
    have children : 2 ≤ (outlineOf cs).length := by rwa [outlineOf_eq_map, List.length_map]
    rw [Native.outline_chain flatten shares chain, outline_shapeOf flatten valid.2 hns,
      Outline.joinAll_normal flatten axis children]
    rfl

theorem outline_shapeOf (flatten : Bool) : ∀ {cs : List (Layout α)} {ns : List (Native α Unit)},
    splitViolationsOf cs = [] → shapeOf cs = some ns →
      ns.map (Native.outline flatten) = (outlineOf cs).map (Outline.normal flatten)
  | [], ns, _, h => by
    obtain rfl := Option.some.inj h
    rfl
  | c :: cs, ns, valid, h => by
    rw [splitViolationsOf, List.append_eq_nil_iff] at valid
    obtain ⟨n, hn, rest⟩ := Option.bind_eq_some_iff.1 h
    obtain ⟨ns, hns, rfl⟩ := Option.map_eq_some_iff.1 rest
    rw [List.map_cons, outline_shape flatten valid.1 hn, outline_shapeOf flatten valid.2 hns]
    rfl

end

/-! ## A layout over existing sections -/

/-- A layout without new panes has a plan, and its page is there at once. -/
theorem exists_page {t : Layout α} (valid : validate (some t) = [])
    (present : ∀ p ∈ t.panes, p.section?.isSome) (tables : TableMap) :
    ∃ plan page, Plan.make (some t) tables = .ok plan ∧ plan.nativeLayout = .ok page ∧
      page.leaves.map some = t.panes.map Pane.section? ∧ t.shape = some page.shape := by
  have mapped : ∀ p ∈ t.panes, ∀ name, p.table? = some name → (tables.get? name).isSome := by
    intro p hp name hname
    have there := present p hp
    rw [(Pane.table?_isSome_iff p).1 (by rw [hname]; rfl)] at there
    cases there
  obtain ⟨plan, made, draws⟩ := Plan.make_total valid mapped
  obtain ⟨ss, hss⟩ := Compile.exists_map_some present
  have looked : (t.slots tables).map (fun slot => plan.registry.lookup slot.ref) = ss.map some := by
    rw [← hss, ← t.slots_panes tables, List.map_map]
    apply List.map_congr_left
    intro slot hs
    obtain ⟨id, hid⟩ := Option.isSome_iff_exists.1 (present _ (pane_mem_of_slot hs))
    rw [(Slot.number_real hs id).2 hid]
    exact hid.symm
  have assigned : plan.Assigned ss := {
    panes := by
      rw [draws.panes, List.map_map]
      exact looked
    leaves := by
      rw [draws.leaves, List.map_map]
      exact looked }
  obtain ⟨page, hpage, leaves, shape⟩ := Plan.nativeLayout_eq assigned
  exact ⟨plan, page, made, hpage, by rw [leaves, hss], by rw [draws.shape, shape]⟩

end Layout

variable [Scalar α]

/-- What comes back from the page of a layout over existing sections: its sections in their order,
under the outline of the layout in its binary form or in the one that splicing ends in. A layout that
has this form already comes back with its own outline. -/
theorem outline_decompile {t : Layout α} (valid : Layout.validate (some t) = [])
    (present : ∀ p ∈ t.panes, p.section?.isSome) (tables : TableMap) (ws : WidgetMap) (s : Schema)
    (o : DecompileOptions) : ∃ plan page,
    Plan.make (some t) tables = .ok plan ∧ plan.nativeLayout = .ok page ∧
    (decompile page ws s o).layout.panes.map Pane.section? = t.panes.map Pane.section? ∧
    (o.flattenChains = false →
      (decompile page ws s o).layout.outline = t.outline.binary ∧
      (t.outline.IsBinary → (decompile page ws s o).layout.outline = t.outline)) ∧
    (o.flattenChains = true →
      (∀ out, (Relation.ReflTransGen Outline.Splices t.outline out ∧ out.Spliced) ↔
        (decompile page ws s o).layout.outline = out) ∧
      (t.outline.Spliced → (decompile page ws s o).layout.outline = t.outline)) := by
  obtain ⟨plan, page, made, hpage, leaves, shape⟩ := Layout.exists_page valid present tables
  have splits := ((Layout.validate_eq_nil_iff t).1 valid).2.1
  have branching := Layout.branching_outline (Plan.branching_of_validate valid)
  have back : (decompile page ws s o).layout.outline = t.outline.normal o.flattenChains := by
    rw [← Layout.outline_shape o.flattenChains splits shape]
    exact Decompile.outline_layoutWith _ _ _
  refine ⟨plan, page, made, hpage, ?_, fun plain => ?_, fun flat => ?_⟩
  · rw [← leaves]
    exact Decompile.sections_decompile page ws s o
  · have binary : (decompile page ws s o).layout.outline = t.outline.binary := by
      rw [back, plain]
      rfl
    exact ⟨binary, fun already => binary.trans (Outline.binary_of_isBinary already)⟩
  · have spliced : (decompile page ws s o).layout.outline = t.outline.splice := by
      rw [back, flat]
      rfl
    rw [spliced]
    refine ⟨fun out => ⟨fun ⟨steps, done⟩ => ?_, ?_⟩, Outline.splice_of_spliced⟩
    · exact (Outline.eq_splice_of_spliced branching steps done).symm
    · rintro rfl
      exact ⟨Outline.splices_splice _, (Outline.splice_spliced branching).1⟩

/-- Splits along one axis as the first, a middle and the last child of each other. -/
def Layout.nested : Layout Rat :=
  .split .horizontal [
    .split .horizontal [.pane (.leaf ⟨1⟩), .pane (.leaf ⟨2⟩), .pane (.leaf ⟨3⟩)] (some [1, 2, 3]),
    .split .vertical [.pane (.leaf ⟨4⟩), .pane (.existing ⟨5⟩ .none)] none,
    .split .horizontal [
      .pane (.leaf ⟨6⟩), .split .horizontal [.pane (.leaf ⟨7⟩), .pane (.leaf ⟨8⟩)] none] none]
    none

theorem outline_decompile_nested : Layout.validate (some Layout.nested) = [] ∧
    (∀ p ∈ Layout.nested.panes, p.section?.isSome) ∧
    ∀ o : DecompileOptions, ∃ plan page,
      Plan.make (some Layout.nested) ∅ = .ok plan ∧ plan.nativeLayout = .ok page ∧
      (decompile page ∅ .empty o).layout.panes.map Pane.section? =
        Layout.nested.panes.map Pane.section? ∧
      (o.flattenChains = false →
        (decompile page ∅ .empty o).layout.outline = Layout.nested.outline.binary ∧
        (Layout.nested.outline.IsBinary →
          (decompile page ∅ .empty o).layout.outline = Layout.nested.outline)) ∧
      (o.flattenChains = true →
        (∀ out, (Relation.ReflTransGen Outline.Splices Layout.nested.outline out ∧ out.Spliced) ↔
          (decompile page ∅ .empty o).layout.outline = out) ∧
        (Layout.nested.outline.Spliced →
          (decompile page ∅ .empty o).layout.outline = Layout.nested.outline)) := by
  have valid : Layout.validate (some Layout.nested) = [] := by decide +kernel
  have present : ∀ p ∈ Layout.nested.panes, p.section?.isSome := by decide +kernel
  exact ⟨valid, present, fun o => outline_decompile valid present ∅ ∅ .empty o⟩

end PaneLayout
