import PaneLayout.Proofs.History
import PaneLayout.Proofs.ReadBack
import PaneLayout.Proofs.Refolding
import PaneLayout.Proofs.Topology

set_option autoImplicit false

/-!
# A page read back and laid out again

A layout that is read off a page has a pane for every section on it, with the texts and the link
that its widget stores. Compiled onto the same page it is accepted, and what the bundle sets is what
was there, up to the ratios.
-/

namespace PaneLayout

variable {α : Type}

theorem WidgetInfo.source_valid {w : WidgetInfo} {raw : LinkTuple} (h : w.link = some raw) :
    raw.source.isValid = true := by
  rw [link] at h
  split at h
  · cases h
  · next nonzero =>
    obtain rfl := Option.some.inj h
    simpa [SectionId.isValid] using nonzero

theorem WidgetInfo.withLink_of_link {w : WidgetInfo} {raw : LinkTuple} (h : w.link = some raw) :
    w.withLink (some raw) = w := by
  rw [link] at h
  split at h
  · cases h
  · obtain rfl := Option.some.inj h
    rfl

/-- The pane says of the section `id` what its widget `w` stores. -/
structure Pane.Recalls (d : Document α) (rules : LinkRules) (id : SectionId) (w : WidgetInfo)
    (p : Pane) : Prop where
  own : p.section? = some id
  old : p.table? = none
  title : p.title = none ∨ p.title = w.title
  description : p.description = none ∨ p.description = w.description
  link : ∀ l, p.link = some l → ∃ raw source, w.link = some raw ∧ raw.source ≠ id ∧
    d.widget? raw.source = some source ∧ l.Recovers d.tables rules ⟨w.table, source.table⟩ raw

namespace Decompile

variable {ws : WidgetMap} {s : Schema} {o : DecompileOptions} {id : SectionId} {w : WidgetInfo}

theorem pane_readLeaf (known : ws.get? id = some w) : (readLeaf ws s o id).pane = .leaf id ∨
    ∃ raw, w.link = some raw ∧ (readLeaf ws s o id).pane = .existing id
      ⟨none, w.title, w.description, some (recover ws s o.schemaHints w raw).guess⟩ := by
  unfold readLeaf
  rw [known]
  dsimp only
  cases w.link with
  | none => exact .inl rfl
  | some raw =>
    dsimp only
    split
    · exact .inr ⟨raw, rfl, rfl⟩
    · exact .inl rfl

theorem recalls_readLeaf {d : Document α} {ids : List SectionId} (sound : d.Sound)
    (reads : ReadBack.Reads d ids ws s) (hints : o.schemaHints = true) (rules : LinkRules)
    (hid : id ∈ ids) (hw : d.widget? id = some w) :
    (readLeaf ws s o id).pane.Recalls d rules id w := by
  rcases pane_readLeaf ((reads.widgets id hid).trans hw) with bare | ⟨raw, hl, linked⟩
  · rw [bare]
    exact ⟨rfl, rfl, .inl rfl, .inl rfl, fun l none => by cases none⟩
  · obtain ⟨apart, ⟨source, hs, sourceCol⟩, targetCol⟩ := sound.linked id w raw hw hl
    obtain ⟨table, covers⟩ := reads.source id hid w raw source hw hl hs
    have recovers : (candidates s true w.table (some source.table) raw).1.Recovers d.tables rules
        ⟨w.table, source.table⟩ raw :=
      recovers_candidates rules sound.columns (reads.owner id hid w hw) covers sourceCol targetCol
    rw [linked]
    refine ⟨rfl, rfl, .inr rfl, .inr rfl, ?_⟩
    rintro _ ⟨⟩
    refine ⟨raw, source, hl, apart, hs, ?_⟩
    rw [recover, table, hints]
    exact recovers

end Decompile

/-- The layout has a pane for every section of the page `n`, and is split as the page is. -/
structure Layout.Recalls (d : Document Rat) (rules : LinkRules) (n : Native Rat SectionId)
    (t : Layout Rat) : Prop where
  own : t.panes.map Pane.section? = n.leaves.map some
  panes : ∀ (i : Nat) (p : Pane), t.panes[i]? = some p → ∃ id w, n.leaves[i]? = some id ∧
    d.widget? id = some w ∧ p.Recalls d rules id w
  skeleton : t.skeleton = some n.shape.skeleton
  splits : Layout.splitViolations t = []

theorem Decompile.recalls_decompile {d : Document Rat} {view : ViewRef} {n : Native Rat SectionId}
    {ws : WidgetMap} {s : Schema} {o : DecompileOptions} (sound : d.Sound) (laid : d.Laid view n)
    (reads : ReadBack.Reads d n.leaves ws s) (hints : o.schemaHints = true) (rules : LinkRules) :
    (decompile n ws s o).layout.Recalls d rules n where
  own := sections_decompile n ws s o
  panes := by
    intro i p hp
    rw [panes_decompile, List.getElem?_map] at hp
    obtain ⟨id, hi, rfl⟩ := Option.map_eq_some_iff.1 hp
    have hid := List.mem_of_getElem? hi
    obtain ⟨w, hw⟩ := Option.isSome_iff_exists.1 (laid.placed id hid).1
    exact ⟨id, w, hi, hw, recalls_readLeaf sound reads hints rules hid hw⟩
  skeleton := skeleton_layoutWith o.flattenChains _ n
  splits := splitViolations_layoutWith o.flattenChains _ laid.proper

/-! ## It can be compiled -/

namespace Layout.Recalls

variable {d : Document Rat} {rules : LinkRules} {n : Native Rat SectionId} {t : Layout Rat}
  (h : t.Recalls d rules n)
include h

theorem newPanes_eq : t.newPanes = [] := newPanes_eq_nil_of_real h.own

theorem sections_eq : t.panes.filterMap Pane.section? = n.leaves :=
  Pane.filterMap_section?_of_real h.own

theorem valid {view : ViewRef} (laid : d.Laid view n) : validate (some t) = [] := by
  refine (validate_eq_nil_iff t).2 ⟨?_, h.splits, fun i p hp => ?_⟩
  · rw [sectionViolations_eq_nil_iff, h.sections_eq]
    exact ⟨laid.distinct, fun id hid => ⟨laid.valid id hid, List.not_mem_nil⟩⟩
  · obtain ⟨id, w, -, -, recalls⟩ := h.panes i p hp
    rw [paneViolations, recalls.old]
    cases hl : p.link with
    | none => rfl
    | some l =>
      obtain ⟨raw, source, stored, apart, -, recovers⟩ := recalls.link l hl
      have target : targetViolations (.ofLayout t) i p l = [] := by
        simp [targetViolations, recovers.source, WidgetInfo.source_valid stored, recalls.own,
          apart.symm]
      rw [List.nil_append]
      dsimp only
      rw [linkViolations, target, List.append_nil, List.map_eq_nil_iff, List.filter_eq_nil_iff]
      exact fun id hid => Bool.eq_false_iff.1 (recovers.named id hid)

end Layout.Recalls

theorem Layout.Recalls.compilable {d : Document Rat} {config : CompilerConfig} {tables : TableMap}
    {n : Native Rat SectionId} {t : Layout Rat} (h : t.Recalls d (.ofConfig tables config) n)
    {view : ViewRef} (laid : d.Laid view n) : t.Compilable d config (some view) tables where
  valid := h.valid laid
  mapped := by
    intro p hp name hname
    obtain ⟨i, hi⟩ := List.mem_iff_getElem?.1 hp
    obtain ⟨id, w, -, -, recalls⟩ := h.panes i p hi
    rw [recalls.old] at hname
    cases hname
  placed := by
    rintro v ⟨⟩
    refine ⟨?_, fun p hp id hid => laid.placed id ?_⟩
    · obtain ⟨page, hpage, -⟩ := Option.bind_eq_some_iff.1 laid.shown
      exact Option.isSome_iff_exists.2 ⟨page, hpage⟩
    · rw [← h.sections_eq]
      exact List.mem_filterMap.2 ⟨p, hp, hid⟩
  allNew := fun none => by cases none
  linked := by
    intro i p l hp hl
    obtain ⟨id, w, -, hw, recalls⟩ := h.panes i p hp
    obtain ⟨raw, source, -, -, hs, recovers⟩ := recalls.link l hl
    refine ⟨⟨w.table, source.table⟩, ?_, recovers.fits⟩
    rw [recovers.source, Document.ends?_eq_some_iff hp recalls.own, hw, hs]
    exact ⟨rfl, rfl⟩

/-! ## It changes nothing -/

/-- What a widget stores already leaves it as it is. -/
theorem Compile.settledWidget_eq_self {tuples : SortedMap Nat LinkTuple} {q : PanePlan}
    {w : WidgetInfo} (link : ∀ tuple, tuples.get? q.index = some tuple → w.link = some tuple)
    (title : q.title = none ∨ q.title = w.title)
    (description : q.description = none ∨ q.description = w.description) :
    settledWidget tuples q w = w := by
  have texts : w.withTexts q.title q.description = w := by
    rcases title with title | title <;> rcases description with description | description <;>
      simp [WidgetInfo.withTexts, title, description]
  unfold settledWidget
  cases ht : tuples.get? q.index with
  | none => exact texts
  | some tuple =>
    dsimp only
    rw [WidgetInfo.withLink_of_link (link tuple ht)]
    exact texts

namespace Compile.Finished

variable {d : Document Rat} {config : CompilerConfig} {request : LayoutRequest Rat}
  {t : Layout Rat} {plan : Plan Rat} {r : Registry} {s : Surroundings} {p : Progress}
  {e : Document Rat} {o : CompileOutcome Rat} {d' : Document Rat} {n : Native Rat SectionId}
  (h : Finished d config request t plan r s p e o d')
  (recalls : t.Recalls d (.ofConfig request.tables config) n)

include recalls in
theorem sectionsOn_of_recalls : sectionsOn d t = n.leaves :=
  Pane.assignedSections_of_real recalls.own _

include h recalls

theorem skeleton_eq : o.layout.skeleton = n.skeleton := by
  have few := Layout.few_of_old recalls.newPanes_eq
  obtain ⟨leaves, shape⟩ := h.page_eq few
  have same := (Layout.skeleton_of_shape shape).symm.trans recalls.skeleton
  refine Native.skeleton_eq_of_shape (Option.some.inj same) ?_
  rw [leaves, sectionsOn_of_recalls recalls]

/-- The tuple of a link is the one that the widget stores. -/
theorem stored_of_tuple {i : Nat} {tuple : LinkTuple} (ht : p.tuples.get? i = some tuple)
    {id : SectionId} (hi : n.leaves[i]? = some id) {w : WidgetInfo} (hw : d.widget? id = some w) :
    w.link = some tuple := by
  have few := Layout.few_of_old recalls.newPanes_eq
  obtain ⟨pane, l, hp, hl, denotes, known⟩ := h.link_of_tuple few ht
  obtain ⟨id', w', hi', hw', pane_recalls⟩ := recalls.panes i pane hp
  obtain rfl := Option.some.inj (hi.symm.trans hi')
  obtain rfl := Option.some.inj (hw.symm.trans hw')
  obtain ⟨raw, source, stored, -, hs, recovers⟩ := pane_recalls.link l hl
  obtain ⟨⟨owner, target⟩, hends, columns⟩ := known fun _ _ => by
    rw [recalls.newPanes_eq]
    exact List.not_mem_nil
  rw [recovers.source] at hends denotes
  obtain ⟨owned, led⟩ := (Document.ends?_eq_some_iff hp pane_recalls.own).1 hends
  rw [hw] at owned
  rw [hs] at led
  obtain rfl : w.table = owner := Option.some.inj owned
  obtain rfl : source.table = target := Option.some.inj led
  rw [recovers.columns] at columns
  obtain ⟨sourceCol, targetCol⟩ := Prod.mk.inj columns
  have same : raw.source = tuple.source := Option.some.inj denotes
  rw [stored]
  cases raw
  cases tuple
  simp only at same sourceCol targetCol
  rw [same, sourceCol, targetCol]

/-- On a section of the page the bundle sets what its widget stores. -/
theorem settledWidget_of_recalls {i : Nat} {id : SectionId} (hi : n.leaves[i]? = some id) :
    ∃ w q, d.widget? id = some w ∧ plan.panes[i]? = some q ∧ settledWidget p.tuples q w = w := by
  have own := congrArg (·[i]?) recalls.own
  simp only [List.getElem?_map, hi, Option.map_some] at own
  obtain ⟨pane, hp, -⟩ := Option.map_eq_some_iff.1 own
  obtain ⟨id', w, hi', hw, pane_recalls⟩ := recalls.panes i pane hp
  obtain rfl := Option.some.inj (hi.symm.trans hi')
  have texts := congrArg (·[i]?) (texts_of_draws h.draws)
  simp only [List.getElem?_map, List.getElem?_mapIdx, hp, Option.map_some] at texts
  obtain ⟨q, hq, told⟩ := Option.map_eq_some_iff.1 texts
  obtain ⟨index, title, description⟩ : q.index = i ∧ q.title = pane.title ∧
      q.description = pane.description := by
    simpa [PanePlan.texts] using told
  refine ⟨w, q, hw, hq, settledWidget_eq_self (fun tuple ht => ?_) ?_ ?_⟩
  · rw [index] at ht
    exact h.stored_of_tuple recalls ht hi hw
  · rw [title]
    exact pane_recalls.title
  · rw [description]
    exact pane_recalls.description

theorem widgets_kept : d'.widgets = d.widgets := by
  have old := recalls.newPanes_eq
  have nothing : d.nextSections t.newPanes.length = [] := by
    rw [old]
    rfl
  have distinct : (d.nextSections t.newPanes.length).Nodup := by
    rw [nothing]
    exact .nil
  have new : ∀ id ∈ d.nextSections t.newPanes.length, d.widget? id = none := by
    rw [nothing]
    exact fun _ none => nomatch none
  apply SortedMap.ext_get?
  intro id
  by_cases hid : id ∈ sectionsOn d t
  · obtain ⟨i, hi⟩ := List.mem_iff_getElem?.1 hid
    have shown := hi
    rw [sectionsOn_of_recalls recalls] at shown
    obtain ⟨w, q, hw, hq, same⟩ := h.settledWidget_of_recalls recalls shown
    have before : e.widget? id = some w := by
      rw [h.reached.grown.widget?_of_notMem, hw]
      rw [h.creations_eq_nil old]
      exact List.not_mem_nil
    calc d'.widget? id
        = (e.widget? id).map (Mutation.touchAll o.mutations id) := h.applied_eq.widgets id
      _ = some (settledWidget p.tuples q w) := by
        rw [before, Option.map_some, h.settled distinct new hq hi]
      _ = d.widget? id := by rw [same, hw]
  · exact h.other_widgets distinct hid

end Compile.Finished

/-! ## Reading back leaves the page as it is -/

namespace Document

variable {d d' : Document Rat} {view : ViewRef} {n : Native Rat SectionId}

theorem OnlyRead.laid (read : d.OnlyRead d') (laid : d.Laid view n) : d'.Laid view n := by
  unfold OnlyRead at read
  rw [read]
  exact ⟨laid.shown, laid.distinct, laid.valid, laid.placed, laid.proper⟩

theorem OnlyRead.recalls (read : d.OnlyRead d') {rules : LinkRules} {t : Layout Rat}
    (h : t.Recalls d rules n) : t.Recalls d' rules n := by
  unfold OnlyRead at read
  rw [read]
  refine ⟨h.own, fun i p hp => ?_, h.skeleton, h.splits⟩
  obtain ⟨id, w, hi, hw, pane⟩ := h.panes i p hp
  exact ⟨id, w, hi, hw, pane.own, pane.old, pane.title, pane.description, pane.link⟩

end Document

open Document in
/-- After any history of compilations the layout that is read off a page can be compiled onto it
again. Nothing is created, no widget changes, and the page is split as before. -/
theorem compile_readBack {d : Document Rat} {views : List ViewRef} (past : Composed d views)
    {view : ViewRef} (set : view ∈ views) (config config' : CompilerConfig)
    (hints : config.reverse.schemaHints = true) (tables tables' : TableMap) (id : Uuid) :
    ∃ n back d₁ o d₂, d.layout? view = some n ∧
      readBack Document.client config view tables d = (.ok back, d₁) ∧
      compile Document.client config' id ⟨some view, tables', some back.layout⟩ d₁ = (.ok o, d₂) ∧
      o.created = [] ∧ d₂.createCalls = d.createCalls ∧ d₂.layout? view = some o.layout ∧
      o.layout.skeleton = n.skeleton ∧ d₂.widgets = d.widgets := by
  have sound := past.sound
  obtain ⟨n, laid⟩ := past.laid set
  have reading := ReadBack.readBackRun_yields config.reverse tables laid.shown
    (fun id hid => (laid.placed id hid).1) sound.owned
  rcases read : readBack Document.client config view tables d with ⟨err | back, d₁⟩
  · exact (reading.error read).elim
  obtain ⟨only, ws, s, rfl, reads⟩ := reading.ok read
  -- Reading only counts its calls, so the layout recalls the document it is compiled on.
  have recalls := only.recalls
    (Decompile.recalls_decompile sound laid reads hints (.ofConfig tables' config'))
  have old := recalls.newPanes_eq
  have calm : d₁.rejectMutationAt = none := (congrArg (·.rejectMutationAt) only).trans sound.calm
  obtain ⟨o, d₂, plan, r, _, p, e, run, h⟩ := Compile.compile_total_of_old
    ⟨some view, tables', some (decompile n ws s config.reverse).layout⟩
    (recalls.compilable (only.laid laid)) old calm rfl id
  have home : o.view = view := h.view_eq
  have page := h.layout?_eq (Layout.few_of_old old)
  rw [home] at page
  have created : o.created = [] := by
    rw [h.created_eq, old]
    rfl
  exact ⟨n, _, d₁, o, d₂, laid.shown, rfl, run, created,
    (h.createCalls_eq old).trans (congrArg (·.createCalls) only), page, h.skeleton_eq recalls,
    (h.widgets_kept recalls).trans (congrArg (·.widgets) only)⟩

/-- The shop as a fixture describes it. -/
def Document.shopFixture : DocumentFixture Rat where
  tables := [⟨"Orders", [⟨"Total", "Numeric"⟩], none⟩, ⟨"Customers", [], none⟩]
  pages := [⟨⟨1⟩, none, [.create ⟨7⟩ ⟨1⟩ .grid]⟩]

theorem Document.shop_composed : Composed shop [] :=
  .fixture (f := shopFixture) ⟨by decide +kernel, by decide +kernel⟩ rfl

theorem compile_readBack_buyers : ∃ o d,
    let config : CompilerConfig := ⟨true, true, true, false, true⟩
    compile Document.client .standard ⟨0⟩
      ⟨some ⟨1⟩, Document.shop.tableMap, some Document.buyersLayout⟩ Document.shop = (.ok o, d) ∧
    (d.Composed [o.view] ∧ o.view ∈ [o.view] ∧ config.reverse.schemaHints = true) ∧
    ∃ n back d₁ o' d₂, d.layout? o.view = some n ∧
      readBack Document.client config o.view ∅ d = (.ok back, d₁) ∧
      compile Document.client config ⟨1⟩ ⟨some o.view, ∅, some back.layout⟩ d₁ = (.ok o', d₂) ∧
      o'.created = [] ∧ d₂.createCalls = d.createCalls ∧ d₂.layout? o.view = some o'.layout ∧
      o'.layout.skeleton = n.skeleton ∧ d₂.widgets = d.widgets := by
  obtain ⟨o, d, run, -⟩ := exists_ok_of_test (fun _ _ => true)
    (x := compile Document.client .standard ⟨0⟩
      ⟨some ⟨1⟩, Document.shop.tableMap, some Document.buyersLayout⟩ Document.shop)
    (by decide +kernel)
  have room : Document.shop.lastSection.toNat + Document.buyersLayout.newPanes.length <
      UInt32.size := by
    decide +kernel
  have past : d.Composed [o.view] :=
    .compile Document.shop_composed rfl Document.buyers_grounded room run
  have here : o.view ∈ [o.view] := List.mem_cons_self
  exact ⟨o, d, run, ⟨past, here, rfl⟩,
    compile_readBack past here ⟨true, true, true, false, true⟩ _ rfl ∅ ∅ ⟨1⟩⟩

end PaneLayout
