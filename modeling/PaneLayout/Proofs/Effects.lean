import PaneLayout.Proofs.Result

set_option autoImplicit false

/-!
# What a compilation does to the document

A finished compilation sets one page and settles the widgets on it; every other page and every other
widget stays as it was. The widgets of the outcome are those of the document, although they are
worked out without it.
-/

namespace PaneLayout

variable {α : Type}

theorem Plan.page?_bundle (plan : Plan α) (ss : List SectionId) (view : ViewRef)
    (page : Native α SectionId) (tuples : SortedMap Nat LinkTuple) :
    (plan.bundle ss view page tuples).filterMap Mutation.page? = [(view, some page)] := by
  have rest : (Mutation.links ss tuples.toList ++
      Mutation.texts ss (plan.panes.map (·.texts)) : List (Mutation α)).filterMap Mutation.page? = [] := by
    rw [List.filterMap_eq_nil_iff]
    intro m hm
    rcases List.mem_append.1 hm with hm | hm
    · obtain ⟨_, _, _, _, _, rfl⟩ := Mutation.mem_links.1 hm
      rfl
    · obtain ⟨_, _, _, _, _, _, rfl⟩ := Mutation.mem_texts hm
      rfl
  rw [Plan.bundle, List.filterMap_cons, rest]
  rfl

theorem Document.find?_made {d : Document α} {cs : List Creation} {id : SectionId}
    (h : id ∈ d.nextSections cs.length) :
    ∃ w ∈ d.made cs, w.id = id ∧ (d.made cs).find? (fun w => w.id == id) = some w := by
  cases hf : (d.made cs).find? fun w => w.id == id with
  | some w => exact ⟨w, List.mem_of_find?_eq_some hf, by simpa using List.find?_some hf, rfl⟩
  | none =>
    rw [← made_ids] at h
    obtain ⟨w, hw, same⟩ := List.mem_map.1 h
    have other := List.find?_eq_none.1 hf w hw
    rw [same, beq_self_eq_true] at other
    exact absurd rfl other

namespace Compile

variable [Scalar α] {d : Document α} {config : CompilerConfig} {request : LayoutRequest α}
  {t : Layout α} {plan : Plan α} {r : Registry} {s : Surroundings} {p : Progress} {e : Document α}
  {view : ViewRef} {page : Native α SectionId} {ms : List (Mutation α)}

namespace Prepared

variable (h : Prepared d config request t plan r s p e view page ms)
include h

theorem view_eq : view = d.home request.view := by
  have opened := h.opened
  rw [h.reached.view] at opened
  cases hc : plan.creations with
  | nil =>
    rw [hc] at opened
    rw [show request.view = some view from opened]
    rfl
  | cons c cs =>
    rw [hc] at opened
    exact (Option.some.inj opened).symm

theorem mem_created_iff {id : SectionId} : id ∈ d.nextSections plan.creations.length ↔
    id ∈ d.nextSections t.newPanes.length := by
  rw [h.draws.creations_length]

theorem creations_eq_nil (none : t.newPanes = []) : plan.creations = [] := by
  have created := h.draws.creations_length
  rw [none] at created
  exact List.length_eq_zero_iff.1 created

/-- Before the bundle the widgets of the tree are as they were, or as they were made. -/
theorem widget_of_section (distinct : (d.nextSections t.newPanes.length).Nodup)
    {id : SectionId} (hid : id ∈ sectionsOn d t) : ∃ w, e.widget? id = some w ∧
      (p.created.find? (fun w => w.id == id) <|> s.widgets.get? id) = some w := by
  rw [← h.draws.creations_length] at distinct
  rw [mem_sectionsOn, ← h.mem_created_iff] at hid
  rw [h.reached.created]
  by_cases made : id ∈ d.nextSections plan.creations.length
  · obtain ⟨w, hw, rfl, found⟩ := Document.find?_made made
    refine ⟨w, h.reached.grown.widget?_of_mem distinct hw, ?_⟩
    rw [found]
    rfl
  · obtain ⟨pane, hp, hs⟩ := List.mem_filterMap.1 (hid.resolve_right made)
    have known := (h.surveyed.known id).2 (h.surveyed.reals pane hp id hs)
    obtain ⟨same, there⟩ := h.surveyed.known_get? known
    obtain ⟨w, hw⟩ := Option.isSome_iff_exists.1 there
    have unmade : (d.made plan.creations).find? (fun w => w.id == id) = none := by
      rw [List.find?_eq_none]
      intro w hw eq
      rw [beq_iff_eq] at eq
      rw [← Document.made_ids] at made
      exact made (List.mem_map.2 ⟨w, hw, eq⟩)
    refine ⟨w, ?_, ?_⟩
    · rw [h.reached.grown.widget?_of_notMem made, hw]
    · rw [unmade, same, hw]
      rfl

theorem contains_section (distinct : (d.nextSections t.newPanes.length).Nodup) {id : SectionId}
    (hid : id ∈ sectionsOn d t) : e.widgets.contains id = true := by
  obtain ⟨w, hw, -⟩ := h.widget_of_section distinct hid
  exact Option.isSome_iff_exists.2 ⟨w, hw⟩

end Prepared

namespace Finished

variable {o : CompileOutcome α} {d' : Document α}
  (h : Finished d config request t plan r s p e o d')
include h

theorem applied_eq : e.bundling.Applied o.mutations d' := by
  rcases e.applyMutations_cases o.mutations with ⟨e', run, -, applied⟩ | ⟨f, ns, e', run, -⟩
  · rw [h.applied] at run
    rw [(Prod.mk.inj run).2]
    exact applied
  · rw [h.applied] at run
    cases (Prod.mk.inj run).1

theorem createCalls_eq (none : t.newPanes = []) : d'.createCalls = d.createCalls := by
  rw [h.applied_eq.creates]
  change e.createCalls = _
  rw [h.reached.grown.creates, h.creations_eq_nil none]
  rfl

theorem widgetViews_eq (none : t.newPanes = []) : d'.widgetViews = d.widgetViews := by
  rw [h.applied_eq.views]
  change e.widgetViews = _
  rw [h.reached.grown.views, h.creations_eq_nil none]
  rfl

theorem taken {m : Mutation α} (hm : m ∈ o.mutations) : e.Takes m := by
  rcases e.applyMutations_cases o.mutations with ⟨e', -, all, -⟩ | ⟨f, ns, e', run, -⟩
  · exact all m hm
  · rw [h.applied] at run
    cases (Prod.mk.inj run).1

theorem pages_eq (few : t.newPanes.length ≤ UInt32.size) :
    d'.pages = e.pages.insert o.view (some o.layout) := by
  rw [h.applied_eq.pages, h.mutations_eq few, Plan.page?_bundle]
  rfl

theorem layout?_eq (few : t.newPanes.length ≤ UInt32.size) : d'.layout? o.view = some o.layout := by
  rw [Document.layout?, h.pages_eq few, SortedMap.get?_insert_self]
  rfl

theorem other_pages (few : t.newPanes.length ≤ UInt32.size) {v : ViewRef} (hv : v ≠ o.view) :
    d'.pages.get? v = d.pages.get? v := by
  rw [h.pages_eq few, SortedMap.get?_insert_of_ne _ _ hv]
  exact h.reached.grown.otherPages v (h.view_eq ▸ hv)

variable (distinct : (d.nextSections t.newPanes.length).Nodup)
  (new : ∀ id ∈ d.nextSections t.newPanes.length, d.widget? id = none)
include distinct new

/-- What the bundle does to the widget of a pane. -/
theorem settled {i : Nat} {q : PanePlan} (hq : plan.panes[i]? = some q) {id : SectionId}
    (hi : (sectionsOn d t)[i]? = some id) (w : WidgetInfo) :
    Mutation.touchAll o.mutations id w = settledWidget p.tuples q w := by
  have few := few_of_nodup distinct
  rw [h.mutations_eq few]
  exact Plan.touchAll_bundle (h.sections_nodup distinct new) hi h.draws.numbered hq w

/-- The widgets of the outcome are those that the document then has, in traversal order. -/
theorem widgets_eq : o.widgets.map some = (sectionsOn d t).map d'.widget? := by
  have length : plan.panes.length = (sectionsOn d t).length := by
    rw [h.draws.panes_length, sectionsOn, Pane.assignedSections_length (sectionsOn_count d t)]
  have few := few_of_nodup distinct
  have found : ∀ q ∈ plan.panes, ∃ id w, (sectionsOn d t)[q.index]? = some id ∧
      (p.created.find? (fun w => w.id == id) <|> s.widgets.get? id) = some w ∧
      d'.widget? id = some (settledWidget p.tuples q w) := by
    intro q hq
    obtain ⟨i, hi, rfl⟩ := List.getElem_of_mem hq
    have at_i : plan.panes[i]? = some plan.panes[i] := List.getElem?_eq_getElem hi
    rw [h.draws.numbered i _ at_i]
    rw [length] at hi
    have hid : (sectionsOn d t)[i]? = some (sectionsOn d t)[i] := List.getElem?_eq_getElem hi
    obtain ⟨w, hw, known⟩ := h.widget_of_section distinct (List.getElem_mem hi)
    refine ⟨_, w, hid, known, ?_⟩
    rw [h.applied_eq.widgets]
    change (e.widget? _).map _ = _
    rw [hw, Option.map_some, h.settled distinct new at_i hid]
  obtain ⟨ws, hws, same⟩ := finalWidgets_eq (h.assigned few) d'.widget? found
  obtain rfl := Except.ok.inj (hws.symm.trans h.widgets)
  rw [same]
  apply List.ext_getElem
  · rw [List.length_map, List.length_map, length]
  · intro i hi hi'
    rw [List.length_map] at hi hi'
    have at_i := List.getElem?_eq_getElem hi
    rw [List.getElem_map, List.getElem_map, h.draws.numbered i _ at_i,
      List.getElem?_eq_getElem hi', Option.bind_some]

omit new in
theorem other_widgets {id : SectionId} (hid : id ∉ sectionsOn d t) :
    d'.widget? id = d.widget? id := by
  have unmade : id ∉ d.nextSections plan.creations.length := by
    intro made
    exact hid (mem_sectionsOn.2 (.inr (h.mem_created_iff.1 made)))
  rw [h.applied_eq.widgets, h.mutations_eq (few_of_nodup distinct)]
  change (e.widget? id).map _ = _
  rw [h.reached.grown.widget?_of_notMem unmade]
  cases d.widget? id with
  | none => rfl
  | some w => exact congrArg some (Plan.touchAll_bundle_of_notMem hid w)

end Finished
end Compile
end PaneLayout
