import PaneLayout.Proofs.Effects
import PaneLayout.Proofs.Reachable

set_option autoImplicit false

/-!
# Layouts that compile

The conditions under which a compilation succeeds: the layout is valid, its tables, panes and
link targets are there, and its links fit their tables. None of the errors is then in reach, and the
outcome is what the document has afterwards.
-/

namespace PaneLayout

variable {α : Type}

/-- No injected fault lies ahead. -/
structure Document.Faultless (d : Document α) : Prop where
  creating : ∀ n, d.failCreateAt = some n → n < d.createCalls
  applying : d.rejectMutationAt = none

/-- No injected fault befalls the next `n` creations and a bundle after them. -/
structure Document.Spared (d : Document α) (n : Nat) : Prop where
  creating : ∀ k, d.failCreateAt = some k → k < d.createCalls ∨ d.createCalls + n ≤ k
  applying : d.rejectMutationAt = none

theorem Document.Faultless.spared {d : Document α} (h : d.Faultless) (n : Nat) : d.Spared n where
  creating := fun k hk => .inl (h.creating k hk)
  applying := h.applying

variable [Scalar α]

namespace Layout

structure Compilable (t : Layout α) (d : Document α) (config : CompilerConfig)
    (view : Option ViewRef) (tables : TableMap) : Prop where
  valid : validate (some t) = []
  /-- The tables of new panes are tables of the document. -/
  mapped : ∀ p ∈ t.panes, ∀ name, p.table? = some name →
    ∃ ref, tables.get? name = some ref ∧ d.tables.contains ref = true
  /-- A given page is there, and so is every section of the tree, on that page. -/
  placed : ∀ v, view = some v → d.pages.contains v = true ∧
    ∀ p ∈ t.panes, ∀ id, p.section? = some id →
      (d.widget? id).isSome ∧ d.widgetViews.get? id = some v
  /-- Without a page there are new panes, and no others. -/
  allNew : view = none → t.newPanes ≠ [] ∧ ∀ p ∈ t.panes, p.section? = none
  /-- Both ends of every link are there, and the link fits their tables. -/
  linked : ∀ (i : Nat) p l, t.panes[i]? = some p → p.link = some l →
    ∃ ends, d.ends? tables t.panes i l.source = some ends ∧
      l.Fits d.tables (.ofConfig tables config) ends

instance (t : Layout α) (d : Document α) (config : CompilerConfig) (view : Option ViewRef)
    (tables : TableMap) : Decidable (t.Compilable d config view tables) :=
  decidable_of_iff
    (validate (some t) = [] ∧
      (∀ p ∈ t.panes, ∀ name ∈ p.table?,
        ∃ ref ∈ tables.get? name, d.tables.contains ref = true) ∧
      (∀ v ∈ view, d.pages.contains v = true ∧ ∀ p ∈ t.panes, ∀ id ∈ p.section?,
        (d.widget? id).isSome ∧ d.widgetViews.get? id = some v) ∧
      (view = none → t.newPanes ≠ [] ∧ ∀ p ∈ t.panes, p.section? = none) ∧
      ∀ i < t.panes.length, ∀ p ∈ t.panes[i]?, ∀ l ∈ p.link,
        ∃ ends ∈ d.ends? tables t.panes i l.source,
          l.Fits d.tables (.ofConfig tables config) ends)
    ⟨fun ⟨valid, mapped, placed, allNew, linked⟩ => {
        valid := valid
        mapped := mapped
        placed := placed
        allNew := allNew
        linked := fun i p l hp =>
          linked i (List.getElem?_eq_some_iff.1 hp).1 p hp l },
      fun h => ⟨h.valid, h.mapped, h.placed, h.allNew,
        fun i _ p hp l hl => h.linked i p l hp hl⟩⟩

end Layout

/-- The document `d'` is `d` with the outcome for the layout `t` put into it. -/
structure CompileOutcome.Realised (o : CompileOutcome α) (t : Layout α) (d d' : Document α) :
    Prop where
  /-- There is one for each new pane. -/
  created : o.created.length = t.newPanes.length
  new : ∀ id ∈ o.created, d.widget? id = none
  shown : d'.layout? o.view = some o.layout
  shape : t.shape = some o.layout.shape
  /-- Panes keep their sections, and new panes have the created ones. -/
  leaves : o.layout.leaves = Pane.assignedSections t.panes o.created
  widgets : o.widgets.map some = o.layout.leaves.map d'.widget?
  otherWidgets : ∀ id, id ∉ o.layout.leaves → d'.widget? id = d.widget? id
  otherPages : ∀ v, v ≠ o.view → d'.layout? v = d.layout? v

namespace Compile

variable {d : Document α} {config : CompilerConfig} {request : LayoutRequest α}
  {t : Layout α} {plan : Plan α} {r : Registry} {s : Surroundings}

section
variable (ready : t.Compilable d config request.view request.tables)
  (draws : plan.Draws request.tables t)
include ready draws

theorem link_fits {l : PendingLink} (hl : l ∈ plan.links) : ∃ ends,
    d.ends? request.tables t.panes l.ownerIndex l.target = some ends ∧
      l.link.Fits d.tables (.ofConfig request.tables config) ends := by
  obtain ⟨p, hp, hk, source⟩ := draws.pane_of_link hl
  rw [source]
  exact ready.linked l.ownerIndex p l.link hp hk

theorem target_there {l : PendingLink} (hl : l ∈ plan.links) {n : SectionId}
    (hn : l.target = .id n) : (d.widget? n).isSome := by
  obtain ⟨ends, hends, -⟩ := link_fits ready draws hl
  obtain ⟨owner, -, hends⟩ := Option.bind_eq_some_iff.1 hends
  obtain ⟨source, hsource, -⟩ := Option.bind_eq_some_iff.1 hends
  rw [hn, Document.targetTable?] at hsource
  obtain ⟨w, hw, -⟩ := Option.map_eq_some_iff.1 hsource
  exact Option.isSome_iff_exists.2 ⟨w, hw⟩

theorem not_obstructed :
    ¬ Obstructed d request.tables (.ofConfig request.tables config) t plan := by
  rintro (⟨p, hp, id, hid, absent⟩ | ⟨l, hl, ends, hends, misfit⟩)
  · cases hv : request.view with
    | none =>
      have new := (ready.allNew hv).2 p hp
      rw [hid] at new
      cases new
    | some v =>
      have there := ((ready.placed v hv).2 p hp id hid).1
      rw [absent] at there
      cases there
  · obtain ⟨ends', hends', fits⟩ := link_fits ready draws hl
    obtain rfl := Option.some.inj (hends.symm.trans hends')
    exact misfit fits

/-- Links only wait for sections of their own run, and none of these is named by number. -/
theorem not_unresolved (surveyed : Surveyed d request.tables t plan r s)
    (new : ∀ id ∈ d.nextSections t.newPanes.length, d.widget? id = none) {cs : List Creation}
    (le : cs.length ≤ plan.creations.length) :
    ¬ Unresolved d (.ofConfig request.tables config) plan r s cs := by
  intro unresolved
  have fits : ∀ l ∈ plan.links, ∀ ends,
      d.ends? request.tables t.panes l.ownerIndex l.target = some ends →
      l.link.Fits d.tables (.ofConfig request.tables config) ends := by
    intro l hl ends hends
    obtain ⟨ends', hends', fits⟩ := link_fits ready draws hl
    rwa [Option.some.inj (hends.symm.trans hends')]
  obtain ⟨l, hl, n, hn, given⟩ := surveyed.handedOut_of_unresolved draws fits unresolved
  have there := target_there ready draws hl hn
  rw [draws.creations_length] at le
  rw [new n (Document.nextSections_subset le given)] at there
  cases there

theorem creatable {e : Document α} (spared : d.Spared t.newPanes.length)
    (room : d.lastSection.toNat + t.newPanes.length < UInt32.size)
    (pageRoom : request.view = none → d.lastView.toNat + 1 < UInt32.size) {cs rest : List Creation}
    {c : Creation} (all : plan.creations = cs ++ c :: rest) (grown : d.Grown request.view cs e) :
    e.Creatable (d.openedView request.view cs) c := by
  have count := draws.creations_length
  rw [all, List.length_append, List.length_cons] at count
  constructor
  case works =>
    intro failing
    rw [grown.failing, grown.creates] at failing
    have past := spared.creating _ failing
    omega
  case room =>
    rw [grown.toNat_last (by omega)]
    omega
  case pageRoom =>
    intro new
    cases cs with
    | nil =>
      rw [grown.lastView rfl]
      exact pageRoom new
    | cons b bs => cases new
  case table =>
    have mem : c ∈ plan.creations := by
      rw [all]
      exact List.mem_append_right cs List.mem_cons_self
    obtain ⟨p, hp, name, hname, htable⟩ := draws.table_of_creation mem
    obtain ⟨ref, href, there⟩ := ready.mapped p hp name hname
    obtain rfl := Option.some.inj (htable.symm.trans href)
    rw [grown.tables]
    exact there
  case page =>
    intro v hv
    cases cs with
    | nil => exact grown.pages v (ready.placed v hv).1
    | cons b bs =>
      obtain rfl := Option.some.inj hv
      exact grown.opened (by simp)

theorem drained (surveyed : Surveyed d request.tables t plan r s) {rules : LinkRules}
    {p : Progress} {e : Document α}
    (reached : Reached d request.view rules plan r s plan.creations p e) :
    p.registry.pending = [] := by
  rw [List.eq_nil_iff_forall_not_mem]
  intro l queued
  obtain ⟨hl, waits⟩ := reached.queued l queued
  have owner : ((registryAfter d r plan.creations).lookup l.owner).isSome := by
    obtain ⟨slot, hs, k, -, rfl⟩ := draws.mem_links.1 hl
    exact draws.lookup_isSome hs
  have target : ((registryAfter d r plan.creations).lookupTarget l.target).isSome := by
    cases ht : l.target with
    | id n =>
      have known := surveyed.targets l hl n ht (target_there ready draws hl ht)
      simp only [Registry.lookupTarget, List.contains_iff_mem, Option.isSome_ite]
      exact (mem_known_registryAfter d r plan.creations n).2 (.inl known)
    | name key =>
      obtain ⟨ends, hends, -⟩ := link_fits ready draws hl
      obtain ⟨_, -, hends⟩ := Option.bind_eq_some_iff.1 hends
      obtain ⟨_, hsource, -⟩ := Option.bind_eq_some_iff.1 hends
      rw [ht, Document.targetTable?] at hsource
      obtain ⟨pane, hpane, -⟩ := Option.bind_eq_some_iff.1 hsource
      obtain ⟨i, hi, hpane⟩ := Option.bind_eq_some_iff.1 hpane
      obtain ⟨slot, hslot, -⟩ := Layout.slots_of_pane request.tables hpane
      have unique : ((NameIndex.ofLayout t).resolve key).unique? = some i := hi
      simp only [registryAfter, Registry.lookupTarget, Registry.names_given, Registry.panes_given,
        surveyed.names_eq draws, surveyed.panes_eq draws, unique, List.getElem?_map, hslot,
        Option.bind_some, Option.map_some]
      exact draws.lookup_isSome (List.mem_of_getElem? hslot)
  simp [Registry.isResolvable, owner, target] at waits

end

/-! ## The bundle is accepted -/

section
variable {p : Progress} {e : Document α} {view : ViewRef} {page : Native α SectionId}
  {ms : List (Mutation α)} (h : Prepared d config request t plan r s p e view page ms)
  (ready : t.Compilable d config request.view request.tables)
  (distinct : (d.nextSections t.newPanes.length).Nodup)
include h ready distinct

theorem contains_source {i : Nat} {tuple : LinkTuple} (ht : p.tuples.get? i = some tuple) :
    e.widgets.contains tuple.source = true := by
  obtain ⟨pane, l, hp, hl, source, -⟩ := h.link_of_tuple (few_of_nodup distinct) ht
  cases hs : l.source with
  | name key =>
    rw [hs] at source
    obtain ⟨j, -, hj⟩ := Option.bind_eq_some_iff.1 source
    exact h.contains_section distinct (List.mem_of_getElem? hj)
  | id n =>
    rw [hs] at source
    obtain rfl : n = tuple.source := Option.some.inj source
    obtain ⟨ref, pending⟩ := h.draws.link_of_pane hp hl
    have there := target_there ready h.draws pending hs
    exact (h.reached.grown.contains_iff tuple.source).2 (.inl there)

/-- The page is there, and the widgets of the tree are on it. -/
theorem takes_page : e.Takes (.setLayout view page) := by
  have created := h.draws.creations_length
  rw [h.view_eq]
  constructor
  · cases hv : request.view with
    | some v => exact h.reached.grown.pages v (ready.placed v hv).1
    | none =>
      rw [← hv]
      refine h.reached.grown.opened fun none => (ready.allNew hv).1 ?_
      rw [none] at created
      exact List.length_eq_zero_iff.1 created.symm
  · intro id hid
    rw [(h.page_eq (few_of_nodup distinct)).1, mem_sectionsOn, ← h.mem_created_iff] at hid
    by_cases made : id ∈ d.nextSections plan.creations.length
    · exact h.reached.grown.view_of_mem made
    · obtain ⟨pane, hp, hs⟩ := List.mem_filterMap.1 (hid.resolve_right made)
      rw [h.reached.grown.view_of_notMem made]
      cases hv : request.view with
      | some v => exact ((ready.placed v hv).2 pane hp id hs).2
      | none =>
        have fresh := (ready.allNew hv).2 pane hp
        rw [hs] at fresh
        cases fresh

theorem takes {m : Mutation α} (hm : m ∈ ms) : e.Takes m := by
  rw [h.mutations_eq (few_of_nodup distinct), Plan.bundle, List.mem_cons, List.mem_append] at hm
  rcases hm with rfl | link | text
  · exact takes_page h ready distinct
  · obtain ⟨i, tuple, owner, ht, howner, rfl⟩ := Mutation.mem_links.1 link
    exact ⟨contains_source h ready distinct (SortedMap.get?_eq_some_iff.2 ht),
      h.contains_section distinct (List.mem_of_getElem? howner)⟩
  · obtain ⟨i, title, description, owner, -, howner, rfl⟩ := Mutation.mem_texts text
    exact h.contains_section distinct (List.mem_of_getElem? howner)

end

/-! ## No error is in reach -/

section
variable (ready : t.Compilable d config request.view request.tables)
  (new : ∀ id ∈ d.nextSections t.newPanes.length, d.widget? id = none)
include ready

theorem exists_plan (layout : request.layout = some t) :
    ∃ plan, Plan.make request.layout request.tables = .ok plan ∧
      plan.Draws request.tables t := by
  rw [layout]
  refine Plan.make_total ready.valid fun p hp name hname => ?_
  obtain ⟨ref, href, -⟩ := ready.mapped p hp name hname
  exact Option.isSome_iff_exists.2 ⟨ref, href⟩

include new

theorem not_hindered (layout : request.layout = some t) : ¬ Hindered d config request := by
  intro hindered
  cases hindered with
  | unplanned err hm =>
    obtain ⟨plan, hm', -⟩ := exists_plan ready layout
    rw [hm] at hm'
    cases hm'
  | homeless plan hm none nothing =>
    obtain ⟨t', layout', -, draws⟩ := Plan.make_ok hm
    obtain rfl := Option.some.inj (layout.symm.trans layout')
    have created := draws.creations_length
    rw [nothing] at created
    exact (ready.allNew none).1 (List.length_eq_zero_iff.1 created.symm)
  | obstructed t' plan layout' draws obstructed =>
    obtain rfl := Option.some.inj (layout.symm.trans layout')
    exact not_obstructed ready draws obstructed
  | unresolved t' plan r s layout' draws surveyed unresolved =>
    obtain rfl := Option.some.inj (layout.symm.trans layout')
    exact not_unresolved ready draws surveyed new (Nat.zero_le _) unresolved

section
variable (spared : d.Spared t.newPanes.length)
  (room : d.lastSection.toNat + t.newPanes.length < UInt32.size)
  (pageRoom : request.view = none → d.lastView.toNat + 1 < UInt32.size)
include spared room pageRoom

theorem not_broken {err : CompileError} {d' : Document α} (draws : plan.Draws request.tables t)
    (surveyed : Surveyed d request.tables t plan r s) :
    ¬ Broken d config request t plan r s err d' := by
  intro broken
  cases broken with
  | stopped err e stopped =>
    cases stopped with
    | refused cs c rest e step message spent all grown cannot =>
      exact cannot (creatable ready draws spared room pageRoom all grown)
    | unresolved cs rest err e all _ _ unresolved =>
      refine not_unresolved ready draws surveyed new ?_ unresolved
      rw [all, List.length_append]
      exact Nat.le_add_right _ _
  | dangling links p e reached waiting => exact waiting (drained ready draws surveyed reached)
  | rejected step message p e view page ms f d' h run =>
    rcases e.applyMutations_cases ms with ⟨e', run', -⟩ | ⟨f', ns, e', run', -, -, why⟩
    · rw [run] at run'
      cases (Prod.mk.inj run').1
    · rcases why with injected | ⟨m, hm, refused⟩
      · rw [h.reached.grown.rejecting] at injected
        exact injected spared.applying
      · exact refused (takes h ready (Document.nextSections_nodup room) hm)

variable (request) in
/-- A layout that can be compiled is compiled. -/
theorem compile_total_of_spared (layout : request.layout = some t) (id : Uuid) :
    ∃ o d' plan r s p e,
    compile Document.client config id request d = (.ok o, d') ∧
      Finished d config request t plan r s p e o d' := by
  rcases run : compile Document.client config id request d with ⟨err | o, d'⟩
  · cases compile_error run with
    | early _ hindered => exact absurd hindered (not_hindered ready new layout)
    | late t' plan r s layout' _ draws surveyed _ broken =>
      obtain rfl := Option.some.inj (layout.symm.trans layout')
      exact absurd broken (not_broken ready new spared room pageRoom draws surveyed)
  · obtain ⟨t', plan, r, s, p, e, h⟩ := compile_ok run
    obtain rfl := Option.some.inj (layout.symm.trans h.layout)
    exact ⟨o, d', plan, r, s, p, e, rfl, h⟩

end

omit new in
variable (request) in
/-- Where nothing is created, only a rejected bundle could stop the run. -/
theorem compile_total_of_old (old : t.newPanes = []) (calm : d.rejectMutationAt = none)
    (layout : request.layout = some t) (id : Uuid) : ∃ o d' plan r s p e,
      compile Document.client config id request d = (.ok o, d') ∧
        Finished d config request t plan r s p e o d' := by
  have spared : d.Spared t.newPanes.length := by
    refine ⟨fun k _ => ?_, calm⟩
    rw [old]
    exact Nat.lt_or_ge k d.createCalls
  refine compile_total_of_spared request ready ?_ spared ?_ ?_ layout id
  · rw [old]
    exact fun _ none => nomatch none
  · rw [old]
    exact d.lastSection.toNat_lt
  · exact fun none => absurd old (ready.allNew none).1

end

/-! ## What is there afterwards -/

theorem Finished.realised {p : Progress} {e d' : Document α} {o : CompileOutcome α}
    (h : Finished d config request t plan r s p e o d')
    (distinct : (d.nextSections t.newPanes.length).Nodup)
    (new : ∀ id ∈ d.nextSections t.newPanes.length, d.widget? id = none) :
    o.Realised t d d' := by
  have few := few_of_nodup distinct
  have leaves := (h.page_eq few).1
  constructor
  case created => exact h.created_length
  case new =>
    rw [h.created_eq]
    exact new
  case shown => exact h.layout?_eq few
  case shape => exact (h.page_eq few).2
  case leaves =>
    rw [leaves, h.created_eq]
    rfl
  case widgets =>
    rw [leaves]
    exact h.widgets_eq distinct new
  case otherWidgets =>
    intro id hid
    rw [leaves] at hid
    exact h.other_widgets distinct hid
  case otherPages =>
    intro v hv
    rw [Document.layout?, Document.layout?, h.other_pages few hv]

end Compile

/-- A layout that can be compiled is compiled, and the document then is as the outcome says. -/
theorem compile_realises {d : Document α} {config : CompilerConfig} (id : Uuid)
    {request : LayoutRequest α} {t : Layout α} (reach : d.Reachable) (faultless : d.Faultless)
    (room : d.lastSection.toNat + t.newPanes.length < UInt32.size)
    (pageRoom : request.view = none → d.lastView.toNat + 1 < UInt32.size)
    (layout : request.layout = some t)
    (ready : t.Compilable d config request.view request.tables) :
    ∃ o d', compile Document.client config id request d = (.ok o, d') ∧ o.Realised t d d' := by
  have new := fun i (hi : i ∈ d.nextSections t.newPanes.length) => reach.nextSections_new room hi
  obtain ⟨o, d', plan, r, s, p, e, run, h⟩ := Compile.compile_total_of_spared request ready new
    (faultless.spared _) room pageRoom layout id
  exact ⟨o, d', run, h.realised (Document.nextSections_nodup room) new⟩

theorem Document.shop_reachable : shop.Reachable :=
  .addWidget _ _ (.addTable _ _ _ (.addTable _ _ _ .empty))

theorem Document.shop_faultless : shop.Faultless where
  creating := fun _ h => by cases h
  applying := rfl

/-- The orders that are there, their buyers, and one order of the buyer. -/
def Document.buyersLayout : Layout Rat :=
  .split .horizontal [
    .pane (.leaf ⟨7⟩),
    .pane (.new "Customers" .grid
      ⟨some "buyers", none, none, some (.filteredBy (.id ⟨7⟩) "Total")⟩),
    .pane (.new "Orders" .card ⟨none, some "One order", none, some (.syncedWith (.name "buyers"))⟩)]
    none

theorem Document.buyers_compilable :
    buyersLayout.Compilable shop .standard (some ⟨1⟩) shop.tableMap := by
  decide +kernel

theorem compile_realises_buyers : Document.shop.Reachable ∧ Document.shop.Faultless ∧
    Document.shop.lastSection.toNat + Document.buyersLayout.newPanes.length < UInt32.size ∧
    Document.buyersLayout.Compilable Document.shop .standard (some ⟨1⟩) Document.shop.tableMap ∧
    ∃ o d', compile Document.client .standard ⟨0⟩
        ⟨some ⟨1⟩, Document.shop.tableMap, some Document.buyersLayout⟩ Document.shop = (.ok o, d') ∧
      o.Realised Document.buyersLayout Document.shop d' := by
  have room : Document.shop.lastSection.toNat + Document.buyersLayout.newPanes.length <
      UInt32.size := by
    decide +kernel
  refine ⟨Document.shop_reachable, Document.shop_faultless, room, Document.buyers_compilable, ?_⟩
  exact compile_realises ⟨0⟩ Document.shop_reachable Document.shop_faultless room nofun rfl
    Document.buyers_compilable

end PaneLayout
