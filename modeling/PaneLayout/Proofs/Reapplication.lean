import PaneLayout.Proofs.BoundValidity
import PaneLayout.Proofs.LinkFidelity
import PaneLayout.Proofs.Progress
import PaneLayout.Proofs.Settled

set_option autoImplicit false

/-!
# Applying a layout again

A layout that has been compiled is compiled again with its sections assigned. Nothing is left to
create, every link is pinned to the section that it led to before, and both ends of it have the
tables they had. So the bundle is the same, and the document takes it without a change.
-/

namespace PaneLayout

variable {α : Type}

/-! ## Tables stay -/

theorem Mutation.table_touchAll (ms : List (Mutation α)) (id : SectionId) (w : WidgetInfo) :
    (touchAll ms id w).table = w.table := by
  induction ms generalizing w with
  | nil => rfl
  | cons m ms ih =>
    have step : (touch id w m).table = w.table := by
      cases m with
      | setLayout view layout => rfl
      | setLink owner t =>
        rw [touch]
        split <;> rfl
      | setSectionInfo owner title description =>
        rw [touch]
        split <;> rfl
    exact (ih (touch id w m)).trans step

/-- The document `e` has the tables and the widgets of `d`, each with its table and on its page. -/
structure Document.Resembles (d e : Document α) : Prop where
  tables : e.tables = d.tables
  views : e.widgetViews = d.widgetViews
  owned : ∀ id, (e.widget? id).map (·.table) = (d.widget? id).map (·.table)

theorem Document.Resembles.refl (d : Document α) : d.Resembles d := ⟨rfl, rfl, fun _ => rfl⟩

theorem Document.Resembles.ends?_eq {d e : Document α} (h : d.Resembles e) (tables : TableMap)
    (ps : List Pane) (i : Nat) (target : LinkTarget) :
    e.ends? tables ps i target = d.ends? tables ps i target := by
  have panes : e.paneTable? tables = d.paneTable? tables := by
    funext p
    unfold paneTable?
    cases p.section? with
    | none => rfl
    | some id => exact h.owned id
  have targets : e.targetTable? tables ps target = d.targetTable? tables ps target := by
    unfold targetTable?
    rw [panes]
    cases target with
    | id n => exact h.owned n
    | name key => rfl
  rw [ends?, ends?, panes, targets]

/-- The document `f` is what `d` was before the bundle `ms`, or has a part of it applied. -/
structure Document.Behind (f : Document α) (view : ViewRef) (ms : List (Mutation α))
    (d : Document α) : Prop extends d.Resembles f where
  page : f.pages.contains view = true
  otherPages : ∀ v, v ≠ view → f.pages.get? v = d.pages.get? v
  widgets : ∀ id, (f.widget? id).map (Mutation.touchAll ms id) = d.widget? id

theorem Document.Applied.table_eq {e d : Document α} {ms : List (Mutation α)} (h : e.Applied ms d)
    (id : SectionId) : (d.widget? id).map (·.table) = (e.widget? id).map (·.table) := by
  rw [h.widgets, Option.map_map]
  congr 1
  funext w
  exact Mutation.table_touchAll ms id w

theorem Document.Applied.get?_pages {e d : Document α} {ms : List (Mutation α)} {view v : ViewRef}
    (h : e.Applied ms d) (only : ∀ x ∈ ms.filterMap Mutation.page?, x.1 = view) (other : v ≠ view) :
    d.pages.get? v = e.pages.get? v := by
  rw [h.pages]
  refine SortedMap.get?_insertAll_of_notMem fun set => ?_
  obtain ⟨x, hx, rfl⟩ := List.mem_map.1 set
  exact other (only x hx)

theorem Document.Applied.behind {e d f : Document α} {ms ns : List (Mutation α)} {view : ViewRef}
    (partly : e.Applied ns f) (whole : e.Applied ms d) (sub : ns ⊆ ms)
    (page : e.pages.contains view = true)
    (only : ∀ x ∈ ms.filterMap Mutation.page?, x.1 = view) : f.Behind view ms d where
  tables := partly.tables.trans whole.tables.symm
  views := partly.views.trans whole.views.symm
  owned := fun id => (partly.table_eq id).trans (whole.table_eq id).symm
  page := by
    rw [partly.pages, SortedMap.contains_insertAll]
    exact .inl page
  otherPages := by
    intro v other
    rw [whole.get?_pages only other]
    refine partly.get?_pages (fun x hx => only x ?_) other
    obtain ⟨m, hm, set⟩ := List.mem_filterMap.1 hx
    exact List.mem_filterMap.2 ⟨m, sub hm, set⟩
  widgets := by
    intro id
    rw [partly.widgets, whole.widgets, Option.map_map]
    congr 1
    funext w
    exact Mutation.touchAll_touchAll sub id w

theorem Layout.Compilable.resembling [Scalar α] {t : Layout α} {d e : Document α}
    {config : CompilerConfig} {view : Option ViewRef} {tables : TableMap}
    (h : t.Compilable d config view tables) (alike : d.Resembles e)
    (page : ∀ v, view = some v → e.pages.contains v = true) :
    t.Compilable e config view tables where
  valid := h.valid
  mapped := by
    rw [alike.tables]
    exact h.mapped
  placed := by
    intro v hv
    refine ⟨page v hv, fun p hp id hid => ?_⟩
    obtain ⟨there, shown⟩ := (h.placed v hv).2 p hp id hid
    have owned := congrArg Option.isSome (alike.owned id)
    rw [Option.isSome_map, Option.isSome_map] at owned
    rw [owned, alike.views]
    exact ⟨there, shown⟩
  allNew := h.allNew
  linked := by
    intro i p l hp hl
    rw [alike.ends?_eq, alike.tables]
    exact h.linked i p l hp hl

namespace Compile

variable [Scalar α] {d : Document α} {config : CompilerConfig} {request : LayoutRequest α}
  {t t' : Layout α} {plan : Plan α} {r : Registry} {s : Surroundings} {p : Progress}
  {e : Document α}

namespace Prepared

variable {view : ViewRef} {page : Native α SectionId} {ms : List (Mutation α)}
  (h : Prepared d config request t plan r s p e view page ms)
  (distinct : (d.nextSections t.newPanes.length).Nodup)
  (new : ∀ id ∈ d.nextSections t.newPanes.length, d.widget? id = none)
include h

theorem not_handedOut (new : ∀ id ∈ d.nextSections t.newPanes.length, d.widget? id = none)
    {id : SectionId} (there : (d.widget? id).isSome) :
    id ∉ d.nextSections plan.creations.length := by
  intro given
  rw [new id (h.mem_created_iff.1 given)] at there
  cases there

include distinct new

theorem table_of_section {i : Nat} {pane : Pane} (hp : t.panes[i]? = some pane) {id : SectionId}
    (hi : (sectionsOn d t)[i]? = some id) :
    (e.widget? id).map (·.table) = d.paneTable? request.tables pane := by
  have few := few_of_nodup distinct
  obtain ⟨id', hi', own⟩ := Pane.assignedSections_getElem? (sectionsOn_count d t) hp
  obtain rfl : id = id' := Option.some.inj (hi.symm.trans hi')
  rcases own with own | ⟨fresh, given⟩
  · have there := h.widget?_of_section (List.mem_of_getElem? hp) own
    rw [h.reached.grown.widget?_of_notMem (h.not_handedOut new there), Document.paneTable?, own]
  · rw [← h.mem_created_iff] at given
    obtain ⟨c, hc, made, placed⟩ := exists_creation given
    rw [← h.draws.creations_length] at distinct
    have widget : e.widget? id = some (.create id c.table c.type) :=
      h.reached.grown.widget?_of_mem distinct made
    rw [h.draws.creations_length] at distinct
    obtain ⟨slot, hs, ref, table, -⟩ := h.draws.slot_of_creation hc
    obtain ⟨j, hj, rfl⟩ := List.getElem_of_mem hs
    -- Both `slot` and the pane have the section `id`, so `slot` is that of the pane.
    have found : p.registry.lookup (t.slots request.tables)[j].ref = some id := by
      rw [lookup_reached h.reached, ref, Registry.lookup, registryAfter, Registry.resolved_given]
      refine SortedMap.get?_insertAll_of_mem ?_ placed
      rw [given_placeholders]
      exact h.draws.placeholders_nodup few
    have at_j := congrArg (·[j]?) (h.lookups few)
    simp only [List.getElem?_map, List.getElem?_eq_getElem hj, Option.map_some, found] at at_j
    obtain ⟨id', hid', same⟩ := Option.map_eq_some_iff.1 at_j.symm
    obtain rfl := Option.some.inj same
    obtain ⟨bound, -⟩ := List.getElem?_eq_some_iff.1 hi
    obtain rfl : i = j :=
      (List.getElem?_inj bound (h.sections_nodup distinct new)).1 (hi.trans hid'.symm)
    have pane_eq := (Layout.slots_getElem? (List.getElem?_eq_getElem hj)).2
    obtain rfl := Option.some.inj (hp.symm.trans pane_eq)
    rw [widget, Document.paneTable?, fresh, ← Slot.number_table (List.getElem_mem hj), table]
    rfl

end Prepared

/-! ## Links of the layout with its sections -/

/-- A link `l` of the `i`-th pane and its tuple, and how they appear in the layout `t'`. -/
structure Repeats (d : Document α) (config : CompilerConfig) (request : LayoutRequest α)
    (t : Layout α) (p : Progress) (d' : Document α) (t' : Layout α) (i : Nat) (pane : Pane)
    (l : Link) (tuple : LinkTuple) (ends : LinkEnds) : Prop where
  owner : t.panes[i]? = some pane
  linked : pane.link = some l
  resolved : p.tuples.get? i = some tuple
  denotes : l.source.sectionIn (.ofLayout t) (sectionsOn d t) = some tuple.source
  known : d'.ends? request.tables t'.panes i (.id tuple.source) = some ends
  fits : l.Fits d.tables (.ofConfig request.tables config) ends
  columns : (tuple.sourceCol, tuple.targetCol) = l.columnRefs d.tables ends

namespace Finished

variable {o : CompileOutcome α} {d' : Document α}
  (h : Finished d config request t plan r s p e o d')
  (room : d.lastSection.toNat + t.newPanes.length < UInt32.size)
  (new : ∀ id ∈ d.nextSections t.newPanes.length, d.widget? id = none)
  (grounded : t.Grounded d) (pinned : t.Pinned (d.nextSections t.newPanes.length) t')
include h

theorem table_eq (id : SectionId) :
    (d'.widget? id).map (·.table) = (e.widget? id).map (·.table) := h.applied_eq.table_eq id

theorem tables_eq : d'.tables = d.tables :=
  h.applied_eq.tables.trans h.reached.grown.tables

include room

theorem valid_of_section {id : SectionId} (hid : id ∈ sectionsOn d t) : id.isValid = true := by
  rcases mem_sectionsOn.1 hid with real | given
  · obtain ⟨pane, hp, hs⟩ := List.mem_filterMap.1 real
    exact Layout.section_valid h.valid hp hs
  · have beyond := Document.lt_of_mem_nextSections room given
    have nonzero : id.raw ≠ 0 := by
      intro zero
      rw [SectionId.toNat, zero] at beyond
      cases beyond
    simpa [SectionId.isValid] using nonzero

theorem valid_of_source {i : Nat} {pane : Pane} (hp : t.panes[i]? = some pane) {l : Link}
    (hl : pane.link = some l) {source : SectionId}
    (denotes : l.source.sectionIn (.ofLayout t) (sectionsOn d t) = some source) :
    source.isValid = true := by
  cases hs : l.source with
  | name key =>
    rw [hs] at denotes
    obtain ⟨j, -, hj⟩ := Option.bind_eq_some_iff.1 denotes
    exact h.valid_of_section room (List.mem_of_getElem? hj)
  | id n =>
    rw [hs] at denotes
    obtain rfl : n = source := Option.some.inj denotes
    exact (Layout.id_ne_self h.valid hp hl hs).1

include new grounded

/-- The sections that come next are new to the layout. -/
theorem bindable : t.Bindable (d.nextSections t.newPanes.length) where
  distinct := Document.nextSections_nodup room
  sections id given old := by
    obtain ⟨pane, hp, own⟩ := List.mem_filterMap.1 old
    have there := h.widget?_of_section hp own
    rw [new id given] at there
    cases there
  targets id given pane hp l hl numeric := by
    have there := h.widget?_isSome (grounded pane hp l id hl numeric)
    rw [new id given] at there
    cases there
  valid := h.valid
  count := d.nextSections_length t.newPanes.length
  nonzero id given :=
    (SectionId.isValid_iff id).1 (h.valid_of_section room (mem_sectionsOn.2 (.inr given)))

/-- The section that a link leads to has the table that the link was checked against. -/
theorem table_of_source {i : Nat} {pane : Pane} (hp : t.panes[i]? = some pane) {l : Link}
    (hl : pane.link = some l) {source : SectionId}
    (denotes : l.source.sectionIn (.ofLayout t) (sectionsOn d t) = some source) :
    (d'.widget? source).map (·.table) = d.targetTable? request.tables t.panes l.source := by
  rw [h.table_eq]
  cases hs : l.source with
  | name key =>
    rw [hs] at denotes
    obtain ⟨j, hj, hsource⟩ := Option.bind_eq_some_iff.1 denotes
    obtain ⟨bound, -⟩ := List.getElem?_eq_some_iff.1 hsource
    rw [sectionsOn, Pane.assignedSections_length (sectionsOn_count d t)] at bound
    have pane_j := List.getElem?_eq_getElem bound
    have resolved : ((NameIndex.ofPanes t.panes).resolve key).unique? = some j := hj
    rw [h.table_of_section (Document.nextSections_nodup room) new pane_j hsource,
      Document.targetTable?, resolved, Option.bind_some, pane_j, Option.bind_some]
  | id n =>
    rw [hs] at denotes
    obtain rfl : n = source := Option.some.inj denotes
    have there := h.widget?_isSome (grounded pane (List.mem_of_getElem? hp) l n hl hs)
    rw [h.reached.grown.widget?_of_notMem (h.not_handedOut new there)]
    rfl

include pinned

theorem repeats {i : Nat} {p' : Pane} (hp' : t'.panes[i]? = some p') {l' : Link}
    (hl' : p'.link = some l') : ∃ pane l tuple ends,
      Repeats d config request t p d' t' i pane l tuple ends ∧
      l' = l.withSource (.id tuple.source) := by
  have distinct := Document.nextSections_nodup room
  have few := few_of_nodup distinct
  obtain ⟨pane, id, hp, hid, own, same⟩ := pinned.pane hp'
  rw [same, Pane.link_settled] at hl'
  obtain ⟨l, hl, rfl⟩ := Option.map_eq_some_iff.1 hl'
  obtain ⟨tuple, ht⟩ := h.tuple_of_link hp hl
  obtain ⟨pane', k, hpane, hk, denotes, known⟩ := h.link_of_tuple few ht
  obtain rfl := Option.some.inj (hp.symm.trans hpane)
  obtain rfl := Option.some.inj (hl.symm.trans hk)
  have apart : ∀ n, l.source = .id n → n ∉ d.nextSections t.newPanes.length :=
    fun n numeric given => (h.bindable room new grounded).targets n given pane
      (List.mem_of_getElem? hp) l hl numeric
  obtain ⟨ends, hends, columns⟩ := known apart
  refine ⟨pane, l, tuple, ends, ?_, Pane.pin_of_sectionIn denotes⟩
  constructor
  case owner => exact hp
  case linked => exact hl
  case resolved => exact ht
  case denotes => exact denotes
  case columns => exact columns
  case fits =>
    obtain ⟨ref, pending⟩ := h.draws.link_of_pane hp hl
    exact h.fits _ pending ends hends
  case known =>
    have owner : d'.paneTable? request.tables p' = d.paneTable? request.tables pane := by
      rw [Document.paneTable?, own, ← h.table_of_section distinct new hp hid, ← h.table_eq]
    have target := h.table_of_source room new grounded hp hl denotes
    rw [← hends, Document.ends?, Document.ends?, hp', hp, Option.bind_some, Option.bind_some, owner,
      Document.targetTable?, target]

/-! ## It can be compiled -/

theorem compilable : t'.Compilable d' config (some o.view) request.tables where
  valid := (h.bindable room new grounded).valid_bound pinned
  mapped := by
    intro p' hp' name hname
    obtain ⟨i, hi, rfl⟩ := List.getElem_of_mem hp'
    obtain ⟨pane, id, -, -, -, same⟩ := pinned.pane (List.getElem?_eq_getElem hi)
    rw [same, Pane.table?_settled] at hname
    cases hname
  placed := by
    have distinct := Document.nextSections_nodup room
    have few := few_of_nodup distinct
    have page : e.Takes (.setLayout o.view o.layout) := by
      refine h.taken ?_
      rw [h.mutations_eq few]
      exact List.mem_cons_self
    intro v hv
    obtain rfl := Option.some.inj hv
    refine ⟨?_, fun p' hp' id hid => ?_⟩
    · rw [h.pages_eq few, SortedMap.contains_insert]
      simp
    · have shown : id ∈ sectionsOn d t := by
        rw [sectionsOn, ← pinned.sections_eq]
        exact List.mem_filterMap.2 ⟨p', hp', hid⟩
      constructor
      · have there := h.contains_section distinct shown
        exact (h.applied_eq.contains_iff id).trans there
      · rw [h.applied_eq.views]
        refine page.2 id ?_
        rwa [(h.page_eq few).1]
  allNew := fun none => by cases none
  linked := by
    intro i p' l' hp' hl'
    obtain ⟨pane, l, tuple, ends, known, rfl⟩ := h.repeats room new grounded pinned hp' hl'
    refine ⟨ends, ?_, ?_⟩
    · rw [Link.source_withSource]
      exact known.known
    · rw [h.tables_eq]
      exact Link.fits_withSource _ known.fits

end Finished

/-! ## The second run -/

namespace Finished

variable {o o' : CompileOutcome α} {d' d'' f : Document α} {plan' : Plan α} {r' : Registry}
  {s' : Surroundings} {p' : Progress} {e' : Document α}
  (h : Finished d config request t plan r s p e o d')
  (pinned : t.Pinned (d.nextSections t.newPanes.length) t')
  (h' : Finished f config ⟨some o.view, request.tables, some t'⟩ t' plan' r' s' p' e' o' d'')

include pinned in
theorem few_again : t'.newPanes.length ≤ UInt32.size := Layout.few_of_old pinned.newPanes_eq

include h' in
theorem view_again : o'.view = o.view := h'.view_eq

include pinned in
theorem sections_again : sectionsOn f t' = sectionsOn d t := pinned.assignedSections_eq _

include h pinned h'

theorem layout_again (few : t.newPanes.length ≤ UInt32.size) : o'.layout = o.layout := by
  have none := few_again pinned
  obtain ⟨leaves, shape⟩ := h.page_eq few
  obtain ⟨leaves', shape'⟩ := h'.page_eq none
  rw [pinned.shape, shape] at shape'
  refine Native.eq_of_shape_of_leaves (Option.some.inj shape').symm ?_
  rw [leaves, leaves', sections_again pinned]

theorem texts_again : plan'.panes.map (·.texts) = plan.panes.map (·.texts) := by
  rw [Compile.texts_of_draws h.draws, Compile.texts_of_draws h'.draws]
  apply List.ext_getElem?
  intro i
  rw [List.getElem?_mapIdx, List.getElem?_mapIdx]
  cases hp' : t'.panes[i]? with
  | some pane' =>
    obtain ⟨pane, id, hp, -, -, rfl⟩ := pinned.pane hp'
    rw [hp, Option.map_some, Option.map_some, Pane.title_settled, Pane.description_settled]
  | none =>
    have beyond := List.getElem?_eq_none_iff.1 hp'
    have length := congrArg List.length pinned.map_section?
    rw [List.length_map, List.length_map, Pane.assignedSections_length pinned.count] at length
    rw [length] at beyond
    rw [List.getElem?_eq_none beyond]

variable (room : d.lastSection.toNat + t.newPanes.length < UInt32.size)
  (new : ∀ id ∈ d.nextSections t.newPanes.length, d.widget? id = none) (grounded : t.Grounded d)
  (alike : d'.Resembles f)
include room new grounded alike

theorem tuple_again {i : Nat} {tuple' : LinkTuple} (ht' : p'.tuples.get? i = some tuple') :
    p.tuples.get? i = some tuple' := by
  obtain ⟨pane', l', hp', hl', source, known⟩ := h'.link_of_tuple (few_again pinned) ht'
  obtain ⟨pane, l, tuple, ends, first, rfl⟩ := h.repeats room new grounded pinned hp' hl'
  rw [Link.source_withSource] at source known
  obtain ⟨ends', hends', columns⟩ := known fun n _ given => by
    rw [pinned.newPanes_eq] at given
    cases given
  rw [alike.ends?_eq] at hends'
  obtain rfl := Option.some.inj (hends'.symm.trans first.known)
  rw [alike.tables, h.tables_eq, Link.columnRefs_withSource, ← first.columns] at columns
  obtain ⟨sourceCol, targetCol⟩ := Prod.mk.inj columns
  have same : tuple.source = tuple'.source := Option.some.inj source
  rw [first.resolved]
  cases tuple
  cases tuple'
  simp only at same sourceCol targetCol
  rw [same, sourceCol, targetCol]

theorem tuples_again : p'.tuples = p.tuples := by
  apply SortedMap.ext_get?
  intro i
  cases ht' : p'.tuples.get? i with
  | some tuple' => exact (h.tuple_again pinned h' room new grounded alike ht').symm
  | none =>
    cases ht : p.tuples.get? i with
    | none => rfl
    | some tuple =>
      have few := few_of_nodup (Document.nextSections_nodup room)
      obtain ⟨pane, l, hp, hl, -⟩ := h.link_of_tuple few ht
      obtain ⟨id, hp'⟩ := pinned.pane_of hp
      have linked := pane.link_settled (.ofLayout t) (sectionsOn d t) id
      rw [hl] at linked
      obtain ⟨tuple', found⟩ := h'.tuple_of_link hp' linked
      rw [ht'] at found
      cases found

/-- The bundle is the same again, on any document like the one that the first run left. -/
theorem mutations_of_resembles : o'.mutations = o.mutations := by
  have few := few_of_nodup (Document.nextSections_nodup room)
  have none := few_again pinned
  rw [h.mutations_eq few, h'.mutations_eq none, Plan.bundle, Plan.bundle, view_again h',
    sections_again pinned, h.layout_again pinned h' few, h.texts_again pinned h',
    h.tuples_again pinned h' room new grounded alike]

omit alike in
theorem widgets_of_behind (behind : f.Behind o.view o.mutations d') : d''.widgets = d'.widgets := by
  apply SortedMap.ext_get?
  intro id
  have kept : e'.widget? id = f.widget? id := by
    refine h'.reached.grown.widget?_of_notMem ?_
    rw [h'.creations_eq_nil pinned.newPanes_eq]
    exact List.not_mem_nil
  calc d''.widget? id
      = (e'.widget? id).map (Mutation.touchAll o'.mutations id) := h'.applied_eq.widgets id
    _ = (f.widget? id).map (Mutation.touchAll o.mutations id) := by
      rw [kept, h.mutations_of_resembles pinned h' room new grounded behind.toResembles]
    _ = d'.widget? id := behind.widgets id

omit new grounded alike in
theorem pages_of_behind (behind : f.Behind o.view o.mutations d') : d''.pages = d'.pages := by
  have few := few_of_nodup (Document.nextSections_nodup room)
  have none := few_again pinned
  apply SortedMap.ext_get?
  intro v
  by_cases same : v = o.view
  · rw [h'.pages_eq none, h.pages_eq few, view_again h', h.layout_again pinned h' few, same,
      SortedMap.get?_insert_self, SortedMap.get?_insert_self]
  · rw [h'.other_pages none (view_again h' ▸ same), behind.otherPages v same]

omit h new grounded room alike in
theorem creates_again : d''.createCalls = f.createCalls := h'.createCalls_eq pinned.newPanes_eq

omit h new grounded room alike in
theorem views_again : d''.widgetViews = f.widgetViews := h'.widgetViews_eq pinned.newPanes_eq

end Finished

/-! ## What a part of the bundle leaves -/

namespace Finished

variable {o : CompileOutcome α} {d' f : Document α} {ns : List (Mutation α)}
  (h : Finished d config request t plan r s p e o d')
include h

theorem behind_of_applied (few : t.newPanes.length ≤ UInt32.size) (sub : ns ⊆ o.mutations)
    (partly : e.bundling.Applied ns f) : f.Behind o.view o.mutations d' := by
  have bundle := h.mutations_eq few
  have page : e.Takes (.setLayout o.view o.layout) := by
    refine h.taken ?_
    rw [bundle]
    exact List.mem_cons_self
  refine partly.behind h.applied_eq sub page.1 ?_
  rw [bundle, Plan.page?_bundle]
  exact fun x hx => congrArg Prod.fst (List.mem_singleton.1 hx)

theorem behind (few : t.newPanes.length ≤ UInt32.size) : d'.Behind o.view o.mutations d' :=
  h.behind_of_applied few (List.Subset.refl _) h.applied_eq

variable (room : d.lastSection.toNat + t.newPanes.length < UInt32.size)
  (new : ∀ id ∈ d.nextSections t.newPanes.length, d.widget? id = none) (grounded : t.Grounded d)
include room new grounded

/-- On a document that a part of the bundle was applied to, the layout with its sections assigned is
compiled to what the whole bundle leads to. -/
theorem recompile (behind : f.Behind o.view o.mutations d') (calm : f.rejectMutationAt = none)
    (id : Uuid) : ∃ t' o' d'', t.withSections o.created = .ok t' ∧
      compile Document.client config id ⟨some o.view, request.tables, some t'⟩ f = (.ok o', d'') ∧
      d''.createCalls = f.createCalls ∧ d''.widgets = d'.widgets ∧
      d''.widgetViews = d'.widgetViews ∧ d''.pages = d'.pages := by
  obtain ⟨t', assigned, pinned⟩ := Layout.withSections_pinned h.created_length
  rw [h.created_eq] at pinned
  have ready : t'.Compilable f config (some o.view) request.tables := by
    refine (h.compilable room new grounded pinned).resembling behind.toResembles ?_
    rintro v ⟨⟩
    exact behind.page
  obtain ⟨o', d'', plan', r', s', p', e', run, h'⟩ :=
    compile_total_of_old ⟨some o.view, request.tables, some t'⟩ ready pinned.newPanes_eq calm rfl id
  refine ⟨t', o', d'', assigned, run, creates_again pinned h', ?_, ?_, ?_⟩
  · exact h.widgets_of_behind pinned h' room new grounded behind
  · exact (views_again pinned h').trans behind.views
  · exact h.pages_of_behind pinned h' room behind

end Finished

namespace Finished

variable {o o' : CompileOutcome α} {d' d'' : Document α} {plan' : Plan α} {r' : Registry}
  {s' : Surroundings} {p' : Progress} {e' : Document α}
  (h : Finished d config request t plan r s p e o d')
  (pinned : t.Pinned (d.nextSections t.newPanes.length) t')
  (h' : Finished d' config ⟨some o.view, request.tables, some t'⟩ t' plan' r' s' p' e' o' d'')
  (room : d.lastSection.toNat + t.newPanes.length < UInt32.size)
include h pinned h' room

theorem pages_again : d''.pages = d'.pages :=
  h.pages_of_behind pinned h' room (h.behind (few_of_nodup (Document.nextSections_nodup room)))

variable (new : ∀ id ∈ d.nextSections t.newPanes.length, d.widget? id = none) (grounded : t.Grounded d)
include new grounded

theorem mutations_again : o'.mutations = o.mutations :=
  h.mutations_of_resembles pinned h' room new grounded (.refl d')

theorem widgets_again : d''.widgets = d'.widgets :=
  h.widgets_of_behind pinned h' room new grounded
    (h.behind (few_of_nodup (Document.nextSections_nodup room)))

end Finished

/-- After a run no fault lies ahead of the document if none did before. -/
theorem Finished.faultless {o : CompileOutcome α} {d' : Document α}
    (h : Finished d config request t plan r s p e o d') (faultless : d.Faultless) :
    d'.Faultless where
  creating := by
    intro n failing
    rw [h.applied_eq.failing] at failing
    change e.failCreateAt = some n at failing
    rw [h.reached.grown.failing] at failing
    have past := faultless.creating n failing
    rw [h.applied_eq.creates]
    change n < e.createCalls
    rw [h.reached.grown.creates]
    omega
  applying := h.applied_eq.rejecting

end Compile

/-- A layout that was compiled is compiled again, with its sections assigned, to the same bundle,
which changes nothing. -/
theorem compile_withSections [Scalar α] {d d' : Document α} {config : CompilerConfig} {id : Uuid}
    (id' : Uuid) {request : LayoutRequest α} {t : Layout α} {o : CompileOutcome α}
    (reach : d.Reachable) (faultless : d.Faultless)
    (room : d.lastSection.toNat + t.newPanes.length < UInt32.size) (layout : request.layout = some t)
    (grounded : t.Grounded d)
    (run : compile Document.client config id request d = (.ok o, d')) :
    ∃ t' o' d'', t.withSections o.created = .ok t' ∧
      compile Document.client config id' ⟨some o.view, request.tables, some t'⟩ d' =
        (.ok o', d'') ∧
      d''.createCalls = d'.createCalls ∧ o'.mutations = o.mutations ∧
      o'.fingerprint = o.fingerprint ∧ d''.widgets = d'.widgets ∧
      d''.widgetViews = d'.widgetViews ∧ d''.pages = d'.pages := by
  obtain ⟨t₀, plan, r, s, p, e, h⟩ := Compile.compile_ok run
  obtain rfl := Option.some.inj (layout.symm.trans h.layout)
  have new := fun i (hi : i ∈ d.nextSections t.newPanes.length) => reach.nextSections_new room hi
  obtain ⟨t', assigned, pinned⟩ := Layout.withSections_pinned h.created_length
  rw [h.created_eq] at pinned
  have ready := h.compilable room new grounded pinned
  obtain ⟨o', d'', plan', r', s', p', e', run', h'⟩ :=
    Compile.compile_total_of_old ⟨some o.view, request.tables, some t'⟩ ready pinned.newPanes_eq
      (h.faultless faultless).applying rfl id'
  have bundle := h.mutations_again pinned h' room new grounded
  refine ⟨t', o', d'', assigned, run', Compile.Finished.creates_again pinned h', bundle, ?_,
    h.widgets_again pinned h' room new grounded, Compile.Finished.views_again pinned h',
    h.pages_again pinned h' room⟩
  rw [h.fingerprint, h'.fingerprint, bundle]

theorem Document.buyers_grounded : buyersLayout.Grounded shop := by
  intro pane hp l n hl hn
  simp only [buyersLayout, Layout.panes, Layout.panesOf, List.cons_append, List.nil_append,
    List.mem_cons, List.not_mem_nil, or_false] at hp
  rcases hp with rfl | rfl | rfl
  · cases hl
  · obtain rfl := Option.some.inj hl
    obtain rfl := LinkTarget.id.inj hn
    exact .inr (by decide +kernel)
  · obtain rfl := Option.some.inj hl
    cases hn

theorem compile_withSections_buyers : ∃ o d',
    (Document.shop.Reachable ∧ Document.shop.Faultless ∧
      Document.shop.lastSection.toNat + Document.buyersLayout.newPanes.length < UInt32.size ∧
      Document.buyersLayout.Grounded Document.shop) ∧
    compile Document.client .standard ⟨0⟩
      ⟨some ⟨1⟩, Document.shop.tableMap, some Document.buyersLayout⟩ Document.shop = (.ok o, d') ∧
    ∃ t' o' d'', Document.buyersLayout.withSections o.created = .ok t' ∧
      compile Document.client .standard ⟨1⟩ ⟨some o.view, Document.shop.tableMap, some t'⟩ d' =
        (.ok o', d'') ∧
      d''.createCalls = d'.createCalls ∧ o'.mutations = o.mutations ∧
      o'.fingerprint = o.fingerprint ∧ d''.widgets = d'.widgets ∧
      d''.widgetViews = d'.widgetViews ∧ d''.pages = d'.pages := by
  have room : Document.shop.lastSection.toNat + Document.buyersLayout.newPanes.length <
      UInt32.size := by
    decide +kernel
  obtain ⟨o, d', run, -⟩ := exists_ok_of_test (fun _ _ => true)
    (x := compile Document.client .standard ⟨0⟩
      ⟨some ⟨1⟩, Document.shop.tableMap, some Document.buyersLayout⟩ Document.shop)
    (by decide +kernel)
  refine ⟨o, d', ⟨Document.shop_reachable, Document.shop_faultless, room,
    Document.buyers_grounded⟩, run, ?_⟩
  exact compile_withSections ⟨1⟩ Document.shop_reachable Document.shop_faultless room rfl
    Document.buyers_grounded run

end PaneLayout
