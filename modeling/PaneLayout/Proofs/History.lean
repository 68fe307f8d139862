import PaneLayout.Proofs.Keeping
import PaneLayout.Proofs.Proportions
import PaneLayout.Proofs.Recovery

set_option autoImplicit false

/-!
# What holds of documents throughout their history

A document starts as a fixture describes it, without links, and compilations follow. Throughout, its
widgets are of its tables, every stored link leads to another widget by columns that have names, and
every page that was laid out shows distinct sections of its own.
-/

namespace PaneLayout

/-! ## Named columns -/

theorem Layout.columns_named {α : Type} [Scalar α] {t : Layout α} (valid : validate (some t) = [])
    {i : Nat} {p : Pane} (hp : t.panes[i]? = some p) {l : Link} (hl : p.link = some l) :
    ∀ id ∈ l.sourceCol.toList ++ l.targetCol.toList, Text.isBlank id = false := by
  have none := linkViolations_eq_nil valid hp hl
  rw [linkViolations, List.append_eq_nil_iff, List.map_eq_nil_iff, List.filter_eq_nil_iff] at none
  exact fun id hid => Bool.eq_false_iff.2 (none.1 id hid)

namespace Document

variable {α : Type}

/-- The tables at the ends of a link between two sections are those of their widgets. -/
theorem ends?_eq_some_iff {d : Document α} {tables : TableMap} {ps : List Pane} {i : Nat} {p : Pane}
    (hp : ps[i]? = some p) {id n : SectionId} (own : p.section? = some id) {ends : LinkEnds} :
    d.ends? tables ps i (.id n) = some ends ↔
      (d.widget? id).map (·.table) = some ends.owner ∧
        (d.widget? n).map (·.table) = some ends.source := by
  have owner : d.paneTable? tables p = (d.widget? id).map (·.table) := by rw [paneTable?, own]
  have target : d.targetTable? tables ps (.id n) = (d.widget? n).map (·.table) := rfl
  rw [ends?, hp, Option.bind_some, owner, target]
  obtain ⟨a, b⟩ := ends
  cases (d.widget? id).map (·.table) <;> cases (d.widget? n).map (·.table) <;> simp

/-! ## Sound documents -/

/-- The link `raw` of a section leads to another one, by columns that their tables name. -/
structure Leads (d : Document α) (id : SectionId) (table : TableRef) (raw : LinkTuple) : Prop where
  apart : raw.source ≠ id
  source : ∃ source, d.widget? raw.source = some source ∧
    TableStore.Names d.tables source.table raw.sourceCol
  target : TableStore.Names d.tables table raw.targetCol

structure Sound (d : Document α) : Prop where
  numbered : d.Numbered
  columns : ∀ t table, d.tables.get? t = some table → table.Numbered
  owned : d.Owned
  linked : ∀ id w raw, d.widget? id = some w → w.link = some raw → d.Leads id w.table raw
  calm : d.rejectMutationAt = none

/-- The page shows `n`, sections that are distinct and on it. -/
structure Laid (d : Document Rat) (view : ViewRef) (n : Native Rat SectionId) : Prop where
  shown : d.layout? view = some n
  distinct : n.leaves.Nodup
  valid : ∀ id ∈ n.leaves, id.isValid = true
  placed : ∀ id ∈ n.leaves, (d.widget? id).isSome ∧ d.widgetViews.get? id = some view
  proper : n.Proper

theorem link_of_made {d : Document α} {cs : List Creation} {w : WidgetInfo} (hw : w ∈ d.made cs) :
    w.link = none := by
  obtain ⟨i, hi, rfl⟩ := List.getElem_of_mem hw
  simp [made, WidgetInfo.create, WidgetInfo.link]

/-- What was made has no link yet. -/
theorem Grown.widget?_of_link {d e : Document α} {view : Option ViewRef} {cs : List Creation}
    (g : d.Grown view cs e) (distinct : (d.nextSections cs.length).Nodup) {id : SectionId}
    {w : WidgetInfo} (hw : e.widget? id = some w) {raw : LinkTuple} (hl : w.link = some raw) :
    d.widget? id = some w := by
  by_cases given : id ∈ d.nextSections cs.length
  · obtain ⟨v, made, rfl, -⟩ := find?_made given
    obtain rfl := Option.some.inj (hw.symm.trans (g.widget?_of_mem distinct made))
    rw [link_of_made made] at hl
    cases hl
  · rwa [g.widget?_of_notMem given] at hw

end Document

namespace Compile

theorem link_settledWidget {tuples : SortedMap Nat LinkTuple} (q : PanePlan) (w : WidgetInfo)
    (valid : ∀ tuple, tuples.get? q.index = some tuple → tuple.source.isValid = true) :
    (settledWidget tuples q w).link = (tuples.get? q.index <|> w.link) := by
  unfold settledWidget
  cases ht : tuples.get? q.index with
  | none => exact w.link_withTexts _ _
  | some tuple => exact w.link_withLink tuple (valid tuple ht)

namespace Finished

section
variable {α : Type} [Scalar α] {d : Document α} {config : CompilerConfig}
  {request : LayoutRequest α} {t : Layout α} {plan : Plan α} {r : Registry} {s : Surroundings}
  {p : Progress} {e : Document α} {o : CompileOutcome α} {d' : Document α}
  (h : Finished d config request t plan r s p e o d')
include h

theorem widget?_kept (new : ∀ id ∈ d.nextSections t.newPanes.length, d.widget? id = none)
    {id : SectionId} {w : WidgetInfo} (hw : d.widget? id = some w) :
    ∃ w', d'.widget? id = some w' ∧ w'.table = w.table := by
  have there : (d.widget? id).isSome := by rw [hw]; rfl
  have table := h.table_eq id
  rw [h.reached.grown.widget?_of_notMem (h.not_handedOut new there), hw] at table
  exact Option.map_eq_some_iff.1 table

theorem leads_kept (new : ∀ id ∈ d.nextSections t.newPanes.length, d.widget? id = none)
    {id : SectionId} {table : TableRef} {raw : LinkTuple} (leads : d.Leads id table raw) :
    d'.Leads id table raw := by
  obtain ⟨apart, ⟨source, hs, named⟩, target⟩ := leads
  obtain ⟨source', hs', same⟩ := h.widget?_kept new hs
  refine ⟨apart, ⟨source', hs', ?_⟩, ?_⟩
  · rw [h.tables_eq, same]
    exact named
  · rw [h.tables_eq]
    exact target

variable (room : d.lastSection.toNat + t.newPanes.length < UInt32.size)
  (new : ∀ id ∈ d.nextSections t.newPanes.length, d.widget? id = none) (grounded : t.Grounded d)
include room new

/-- The link of a section on the page is of this run, or as it was before. -/
theorem link_of_section {id : SectionId} (hid : id ∈ sectionsOn d t) {w : WidgetInfo}
    (hw : d'.widget? id = some w) {raw : LinkTuple} (hl : w.link = some raw) :
    (∃ i, (sectionsOn d t)[i]? = some id ∧ p.tuples.get? i = some raw) ∨
      ∃ v, d.widget? id = some v ∧ v.link = some raw ∧ v.table = w.table := by
  have distinct := Document.nextSections_nodup room
  obtain ⟨i, hi⟩ := List.mem_iff_getElem?.1 hid
  obtain ⟨v, hv, -⟩ := h.widget_of_section distinct hid
  have bound : i < plan.panes.length := by
    have within := (List.getElem?_eq_some_iff.1 hi).1
    rwa [sectionsOn, Pane.assignedSections_length (sectionsOn_count d t), ← h.draws.panes_length]
      at within
  have hq : plan.panes[i]? = some plan.panes[i] := List.getElem?_eq_getElem bound
  have table := h.table_eq id
  have after := h.applied_eq.widgets id
  change _ = (e.widget? id).map _ at after
  rw [hw, hv, Option.map_some, h.settled distinct new hq hi] at after
  rw [hw, hv] at table
  obtain rfl := Option.some.inj after
  rw [link_settledWidget, h.draws.numbered i _ hq] at hl
  · cases ht : p.tuples.get? i with
    | some tuple =>
      rw [ht] at hl
      exact .inl ⟨i, hi, ht.trans hl⟩
    | none =>
      rw [ht] at hl
      rw [← h.draws.creations_length] at distinct
      exact .inr ⟨v, h.reached.grown.widget?_of_link distinct hv hl, hl,
        (Option.some.inj table).symm⟩
  · intro tuple ht
    obtain ⟨pane, l, hp, hk, denotes, -⟩ := h.link_of_tuple (few_of_nodup distinct) ht
    exact h.valid_of_source room hp hk denotes

include grounded

theorem leads_of_tuple {i : Nat} {id : SectionId} (hi : (sectionsOn d t)[i]? = some id)
    {raw : LinkTuple} (ht : p.tuples.get? i = some raw) {w : WidgetInfo}
    (hw : d'.widget? id = some w) : d'.Leads id w.table raw := by
  have distinct := Document.nextSections_nodup room
  have few := few_of_nodup distinct
  -- With its sections assigned the layout says in the document of afterwards what is stored.
  obtain ⟨t', -, pinned⟩ := Layout.withSections_pinned h.created_length
  rw [h.created_eq] at pinned
  obtain ⟨pane, l, hp, hl, -⟩ := h.link_of_tuple few ht
  obtain ⟨id', hp'⟩ := pinned.pane_of hp
  have hl' := pane.link_settled (.ofLayout t) (sectionsOn d t) id'
  rw [hl] at hl'
  obtain ⟨pane', l', tuple, ends, known, -⟩ := h.repeats room new grounded pinned hp' hl'
  obtain rfl := Option.some.inj (hp.symm.trans known.owner)
  obtain rfl := Option.some.inj (hl.symm.trans known.linked)
  obtain rfl := Option.some.inj (ht.symm.trans known.resolved)
  obtain ⟨_, id'', -, hid, own, -⟩ := pinned.pane hp'
  obtain rfl := Option.some.inj (hi.symm.trans hid)
  obtain ⟨owner, source⟩ := (Document.ends?_eq_some_iff hp' own).1 known.known
  rw [hw] at owner
  replace owner : w.table = ends.owner := Option.some.inj owner
  obtain ⟨v, hv, table⟩ := Option.map_eq_some_iff.1 source
  obtain ⟨sourceCol, targetCol⟩ := known.fits.names (Layout.columns_named h.valid hp hl)
  rw [← known.columns] at sourceCol targetCol
  constructor
  case apart =>
    have set := (h.setLink_mem few).2 ⟨i, ht, hi⟩
    rw [← h.created_eq] at distinct new
    obtain ⟨_, _, _, _, _, _, _, ne⟩ := h.faithful distinct new grounded set
    exact ne
  case source =>
    refine ⟨v, hv, ?_⟩
    rw [h.tables_eq, table]
    exact sourceCol
  case target =>
    rw [h.tables_eq, owner]
    exact targetCol

omit new in
/-- A compilation leaves a sound document sound. -/
theorem sound (sound : d.Sound) (owned : d'.Owned) : d'.Sound where
  numbered := by
    have reserved := room
    rw [← h.draws.creations_length] at reserved
    have grown := h.reached.grown.numbered sound.numbered reserved
    exact Document.numbered_of_applied (d := e.bundling) grown h.applied_eq
  columns := by
    rw [h.tables_eq]
    exact sound.columns
  owned := owned
  linked := by
    intro id w raw hw hl
    have distinct := Document.nextSections_nodup room
    have new : ∀ id ∈ d.nextSections t.newPanes.length, d.widget? id = none :=
      fun _ => sound.numbered.nextSections_new room
    -- Only sections of the page are touched, and not all of them were given a link.
    by_cases hid : id ∈ sectionsOn d t
    · rcases h.link_of_section room new hid hw hl with ⟨i, hi, ht⟩ | ⟨v, hv, hlink, table⟩
      · exact h.leads_of_tuple room new grounded hi ht hw
      · rw [← table]
        exact h.leads_kept new (sound.linked id v raw hv hlink)
    · rw [h.other_widgets distinct hid] at hw
      exact h.leads_kept new (sound.linked id w raw hw hl)
  calm := h.applied_eq.rejecting

end

section
variable {d : Document Rat} {config : CompilerConfig} {request : LayoutRequest Rat}
  {t : Layout Rat} {plan : Plan Rat} {r : Registry} {s : Surroundings} {p : Progress}
  {e : Document Rat} {o : CompileOutcome Rat} {d' : Document Rat}
  (h : Finished d config request t plan r s p e o d')
  (room : d.lastSection.toNat + t.newPanes.length < UInt32.size)
  (new : ∀ id ∈ d.nextSections t.newPanes.length, d.widget? id = none)
include h room new

/-- The page of a compilation is laid out. -/
theorem laid : d'.Laid o.view o.layout := by
  have distinct := Document.nextSections_nodup room
  have few := few_of_nodup distinct
  obtain ⟨leaves, shape⟩ := h.page_eq few
  have page : e.Takes (.setLayout o.view o.layout) := by
    refine h.taken ?_
    rw [h.mutations_eq few]
    exact List.mem_cons_self
  constructor
  case shown => exact h.layout?_eq few
  case distinct =>
    rw [leaves]
    exact h.sections_nodup distinct new
  case valid =>
    rw [leaves]
    exact fun id hid => h.valid_of_section room hid
  case placed =>
    intro id hid
    rw [h.applied_eq.views]
    refine ⟨?_, page.2 id hid⟩
    rw [leaves] at hid
    exact (h.applied_eq.contains_iff id).trans (h.contains_section distinct hid)
  case proper =>
    have proper := Layout.proper_shape ((Layout.validate_eq_nil_iff t).1 h.valid).2.1 shape
    rwa [Native.Proper, Native.ratios_shape] at proper

/-- A page that was laid out stays so until it is laid out again. -/
theorem laid_other {view : ViewRef} (other : view ≠ o.view) {n : Native Rat SectionId}
    (laid : d.Laid view n) : d'.Laid view n where
  shown := by
    have distinct := Document.nextSections_nodup room
    rw [Document.layout?, h.other_pages (few_of_nodup distinct) other]
    exact laid.shown
  distinct := laid.distinct
  valid := laid.valid
  placed := by
    intro id hid
    obtain ⟨there, shown⟩ := laid.placed id hid
    obtain ⟨w, hw⟩ := Option.isSome_iff_exists.1 there
    obtain ⟨w', hw', -⟩ := h.widget?_kept new hw
    refine ⟨Option.isSome_iff_exists.2 ⟨w', hw'⟩, ?_⟩
    rw [h.applied_eq.views]
    change e.widgetViews.get? id = _
    rw [h.reached.grown.view_of_notMem (h.not_handedOut new there)]
    exact shown
  proper := laid.proper

end

end Finished
end Compile

/-! ## Fixtures -/

/-- The widgets of the fixture have no links, and its columns can be numbered. -/
structure DocumentFixture.Plain {α : Type} (f : DocumentFixture α) : Prop where
  unlinked : ∀ p ∈ f.pages, ∀ w ∈ p.widgets, w.link = none
  countable : (f.tables.map (·.columns.length)).sum < UInt32.size

namespace Document

variable {α : Type}

theorem numberColumns_spec (cols : List (String × String)) {last : UInt32}
    (room : last.toNat + cols.length < UInt32.size) :
    (numberColumns last cols).2.toNat = last.toNat + cols.length ∧
      (numberColumns last cols).1.map (·.ref.toNat) = List.range' (last.toNat + 1) cols.length := by
  induction cols generalizing last with
  | nil => exact ⟨rfl, rfl⟩
  | cons col cols ih =>
    rw [List.length_cons] at room
    have next : (last + 1).toNat = last.toNat + 1 := toNat_succ (by omega)
    obtain ⟨final, refs⟩ := @ih (last + 1) (by omega)
    rw [next] at final refs
    constructor
    · rw [numberColumns, List.length_cons]
      dsimp only
      omega
    · rw [numberColumns, List.length_cons, List.range'_succ, List.map_cons, refs]
      exact congrArg (· :: _) next

theorem numbered_of_numberColumns {last : UInt32} {cols : List (String × String)}
    (room : last.toNat + cols.length < UInt32.size) (name : String) (summaryOf : Option TableRef) :
    (Table.mk name (numberColumns last cols).1 summaryOf).Numbered := by
  obtain ⟨-, refs⟩ := numberColumns_spec cols room
  constructor
  · have distinct : ((numberColumns last cols).1.map (·.ref.toNat)).Nodup := by
      rw [refs]
      exact List.nodup_range'
    rw [← Function.comp_def ColumnRef.toNat, ← List.map_map] at distinct
    exact List.Nodup.of_map _ distinct
  · intro c hc
    have mem := List.mem_map_of_mem (f := fun c : ColumnInfo => c.ref.toNat) hc
    rw [refs, List.mem_range'_1] at mem
    have nonzero : c.ref.raw ≠ 0 := by
      intro zero
      rw [ColumnRef.toNat, zero] at mem
      exact absurd mem.1 (Nat.not_succ_le_zero _)
    simpa [ColumnRef.isSet] using nonzero

theorem columns_of_tables {ts : List TableFixture} {d e : Document α}
    (columns : ∀ t table, d.tables.get? t = some table → table.Numbered)
    (room : d.lastColumn.toNat + (ts.map (·.columns.length)).sum < UInt32.size)
    (run : ts.foldlM addTableFixture d = .ok e) :
    ∀ t table, e.tables.get? t = some table → table.Numbered := by
  induction ts generalizing d with
  | nil =>
    obtain rfl := Except.ok.inj run
    exact columns
  | cons t ts ih =>
    rw [List.foldlM_cons, bind_ok_iff] at run
    obtain ⟨d₁, here, rest⟩ := run
    obtain ⟨-, rfl⟩ := addTableFixture_ok here
    rw [List.map_cons, List.sum_cons, ← List.length_map fun c : ColumnFixture => (c.id, c.type)]
      at room
    have first : d.lastColumn.toNat + (t.columns.map fun c => (c.id, c.type)).length <
        UInt32.size := by
      omega
    refine ih ?_ ?_ rest
    · intro ref table ht
      change (d.tables.insert _ _).get? ref = some table at ht
      rw [SortedMap.get?_insert] at ht
      split at ht
      · obtain rfl := Option.some.inj ht
        exact numbered_of_numberColumns first t.name _
      · exact columns ref table ht
    · have last := (numberColumns_spec _ first).1
      change (numberColumns _ _).2.toNat + _ < _
      rw [last]
      omega

/-- A document with the tables `ts` and no links. -/
structure Unlinked (ts : TableStore) (d : Document α) : Prop where
  tables : d.tables = ts
  widgets : ∀ id w, d.widget? id = some w → ts.contains w.table = true ∧ w.link = none
  calm : d.rejectMutationAt = none

theorem Unlinked.addPageFixture {ts : TableStore} {d e : Document α} {p : PageFixture α}
    (h : d.Unlinked ts) (plain : ∀ w ∈ p.widgets, w.link = none)
    (run : d.addPageFixture p = .ok e) : e.Unlinked ts := by
  have start : (d.setPage p.view p.layout).Unlinked ts := ⟨h.tables, h.widgets, h.calm⟩
  refine addPageFixture_keeps (P := Unlinked ts) start (fun d w hw h there => ?_) run
  refine ⟨h.tables, fun id v hv => ?_, h.calm⟩
  change (d.widgets.insert w.id w).get? id = some v at hv
  rw [SortedMap.get?_insert] at hv
  split at hv
  · obtain rfl := Option.some.inj hv
    rw [h.tables] at there
    exact ⟨there, plain w hw⟩
  · exact h.widgets id v hv

theorem sound_of_fixture {f : DocumentFixture α} (plain : f.Plain) {d : Document α}
    (run : ofFixture f = .ok d) : d.Sound := by
  have numbered := (reachable_of_fixture run).numbered
  obtain ⟨e, tables, pages⟩ := ofFixture_ok run
  have countable : (empty : Document α).lastColumn.toNat +
      (f.tables.map (·.columns.length)).sum < UInt32.size := by
    simpa [empty] using plain.countable
  have columns := columns_of_tables (fun _ _ none => by cases none) countable tables
  have bare : e.widgets = ∅ ∧ e.rejectMutationAt = none := by
    refine foldlM_keeps (P := fun d => d.widgets = ∅ ∧ d.rejectMutationAt = none) ?_ ⟨rfl, rfl⟩
      tables
    intro d t _ e h run
    obtain ⟨-, rfl⟩ := addTableFixture_ok run
    exact h
  have start : e.Unlinked e.tables := by
    refine ⟨rfl, fun id w hw => ?_, bare.2⟩
    rw [widget?, bare.1] at hw
    cases hw
  have unlinked : d.Unlinked e.tables :=
    foldlM_keeps (fun _ p hp _ h => h.addPageFixture (plain.unlinked p hp)) start pages
  constructor
  case numbered => exact numbered
  case columns =>
    rw [unlinked.tables]
    exact columns
  case owned =>
    intro id w hw
    rw [unlinked.tables]
    exact (unlinked.widgets id w hw).1
  case linked =>
    intro id w raw hw hl
    rw [(unlinked.widgets id w hw).2] at hl
    cases hl
  case calm => exact unlinked.calm

/-! ## Histories -/

/-- A fixture without links and compilations that succeeded, with the pages that they laid out.
Every numeric link target was there at its time, and section numbers are not used up. -/
inductive Composed : Document Rat → List ViewRef → Prop
  | fixture {f : DocumentFixture Rat} {d : Document Rat} : f.Plain → ofFixture f = .ok d →
    Composed d []
  | compile {d d' : Document Rat} {views : List ViewRef} {config : CompilerConfig} {id : Uuid}
    {request : LayoutRequest Rat} {t : Layout Rat} {o : CompileOutcome Rat} : Composed d views →
    request.layout = some t → t.Grounded d →
    d.lastSection.toNat + t.newPanes.length < UInt32.size →
    compile Document.client config id request d = (.ok o, d') → Composed d' (o.view :: views)

namespace Composed

variable {d : Document Rat} {views : List ViewRef}

theorem sound (h : Composed d views) : d.Sound := by
  induction h with
  | fixture plain run => exact sound_of_fixture plain run
  | @compile d d' views config id request t o _ layout grounded room run ih =>
    have owned := keeps_owned.compile config id request ih.owned
    rw [run] at owned
    obtain ⟨t', plan, r, s, p, e, h⟩ := Compile.compile_ok run
    obtain rfl := Option.some.inj (layout.symm.trans h.layout)
    exact h.sound room grounded ih owned

theorem laid (h : Composed d views) {view : ViewRef} (set : view ∈ views) : ∃ n, d.Laid view n := by
  induction h with
  | fixture plain run => cases set
  | @compile d d' views config id request t o past layout _ room run ih =>
    obtain ⟨t', plan, r, s, p, e, h⟩ := Compile.compile_ok run
    obtain rfl := Option.some.inj (layout.symm.trans h.layout)
    have new : ∀ id ∈ d.nextSections t.newPanes.length, d.widget? id = none :=
      fun _ => past.sound.numbered.nextSections_new room
    by_cases same : view = o.view
    · rw [same]
      exact ⟨o.layout, h.laid room new⟩
    · obtain ⟨n, laid⟩ := ih ((List.mem_cons.1 set).resolve_left same)
      exact ⟨n, h.laid_other room new same laid⟩

end Composed
end Document
end PaneLayout
