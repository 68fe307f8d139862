import PaneLayout.Proofs.Coverage
import PaneLayout.Proofs.Validity
import PaneLayout.Scalar.Rational

set_option autoImplicit false

/-!
# What a finished compilation gives

The result of a compilation in terms of the layout and of the sections that were created: the page
has the assigned sections as its leaves, and the bundle sets it, the links and the texts. Links are
read as the layout reads them, whatever the order in which they became resolvable.
-/

namespace PaneLayout.Compile

variable {α : Type} [Scalar α]

theorem sections_length_le {ids : List SectionId} (distinct : ids.Nodup) :
    ids.length ≤ UInt32.size := by
  have nats : (ids.map (·.toNat)).Nodup := by
    rw [List.Nodup, List.pairwise_map]
    exact distinct.imp fun ne same => ne (SectionId.toNat_inj same)
  have bound : ids.map (·.toNat) ⊆ List.range UInt32.size := by
    intro n hn
    obtain ⟨id, -, rfl⟩ := List.mem_map.1 hn
    rw [List.mem_range]
    exact id.raw.toNat_lt
  have le := nats.length_le_of_subset bound
  rwa [List.length_map, List.length_range] at le

omit [Scalar α] in
theorem few_of_nodup {d : Document α} {n : Nat} (distinct : (d.nextSections n).Nodup) :
    n ≤ UInt32.size := by
  rw [← d.nextSections_length n]
  exact sections_length_le distinct

/-- The sections of the panes in a run on the document `d`. -/
def sectionsOn (d : Document α) (t : Layout α) : List SectionId :=
  Pane.assignedSections t.panes (d.nextSections t.newPanes.length)

omit [Scalar α] in
theorem sectionsOn_count (d : Document α) (t : Layout α) :
    (d.nextSections t.newPanes.length).length = Pane.newCount t.panes :=
  d.nextSections_length _

omit [Scalar α] in
theorem mem_sectionsOn {d : Document α} {t : Layout α} {id : SectionId} : id ∈ sectionsOn d t ↔
    id ∈ t.panes.filterMap Pane.section? ∨ id ∈ d.nextSections t.newPanes.length := by
  rw [sectionsOn, (Pane.assignedSections_perm (sectionsOn_count d t)).mem_iff, List.mem_append]

namespace Prepared

variable {d : Document α} {config : CompilerConfig} {request : LayoutRequest α} {t : Layout α}
  {plan : Plan α} {r : Registry} {s : Surroundings} {p : Progress} {e : Document α}
  {view : ViewRef} {page : Native α SectionId} {ms : List (Mutation α)}

section
variable (h : Prepared d config request t plan r s p e view page ms)
include h

theorem lookups (few : t.newPanes.length ≤ UInt32.size) :
    (t.slots request.tables).map (fun slot => p.registry.lookup slot.ref) =
      (sectionsOn d t).map some := by
  rw [lookup_reached h.reached]
  exact h.draws.lookup_eq few

theorem assigned (few : t.newPanes.length ≤ UInt32.size) :
    (settledPlan plan p).Assigned (sectionsOn d t) :=
  assigned_of_lookup h.draws (h.lookups few)

theorem page_eq (few : t.newPanes.length ≤ UInt32.size) :
    page.leaves = sectionsOn d t ∧ t.shape = some page.shape := by
  obtain ⟨page', hpage, leaves, shape⟩ := Plan.nativeLayout_eq (h.assigned few)
  obtain rfl := Except.ok.inj (hpage.symm.trans h.laidOut)
  exact ⟨leaves, by rw [shape]; exact h.draws.shape⟩

theorem mutations_eq (few : t.newPanes.length ≤ UInt32.size) :
    ms = plan.bundle (sectionsOn d t) view page p.tuples := by
  have assigned := h.assigned few
  have index : ∀ q ∈ plan.panes, q.index < (sectionsOn d t).length := index_lt h.draws assigned
  have bundle := Plan.mutations_eq assigned view page
    (tuples_lt h.draws h.reached.sound assigned) index
  exact (Except.ok.inj (bundle.symm.trans h.mutations)).symm

/-! ## Sections -/

theorem widget?_of_section {pane : Pane} (hp : pane ∈ t.panes) {n : SectionId}
    (hn : pane.section? = some n) : (d.widget? n).isSome := by
  have known := (h.surveyed.known n).2 (h.surveyed.reals pane hp n hn)
  exact (h.surveyed.known_get? known).2

/-- New sections keep the sections of the page apart. -/
theorem sections_nodup (distinct : (d.nextSections t.newPanes.length).Nodup)
    (new : ∀ id ∈ d.nextSections t.newPanes.length, d.widget? id = none) :
    (sectionsOn d t).Nodup := by
  rw [sectionsOn, (Pane.assignedSections_perm (sectionsOn_count d t)).nodup_iff, List.nodup_append]
  refine ⟨Layout.sections_nodup h.valid, distinct, ?_⟩
  intro id hid new_id hnew same
  obtain ⟨pane, hp, hs⟩ := List.mem_filterMap.1 hid
  have there := h.widget?_of_section hp hs
  rw [same, new new_id hnew] at there
  cases there

/-! ## Links -/

theorem tuple_of_link {i : Nat} {pane : Pane} (hp : t.panes[i]? = some pane) {l : Link}
    (hl : pane.link = some l) : ∃ tuple, p.tuples.get? i = some tuple := by
  obtain ⟨ref, pending⟩ := h.draws.link_of_pane hp hl
  rcases h.reached.settled _ pending with queued | done
  · rw [h.drained] at queued
    cases queued
  · exact Option.isSome_iff_exists.1 done

/-- Every tuple is that of a link, and its source is what the link's target denotes. -/
theorem link_of_tuple (few : t.newPanes.length ≤ UInt32.size) {i : Nat} {tuple : LinkTuple}
    (ht : p.tuples.get? i = some tuple) : ∃ pane l, t.panes[i]? = some pane ∧
      pane.link = some l ∧
      l.source.sectionIn (.ofLayout t) (sectionsOn d t) = some tuple.source ∧
      ((∀ n, l.source = .id n → n ∉ d.nextSections t.newPanes.length) → ∃ ends,
        d.ends? request.tables t.panes i l.source = some ends ∧
        (tuple.sourceCol, tuple.targetCol) = l.columnRefs d.tables ends) := by
  obtain ⟨l, hl, rfl, cs, le, resolves⟩ := h.reached.sound i tuple ht
  obtain ⟨pane, hp, hk, target⟩ := h.draws.pane_of_link hl
  refine ⟨pane, l.link, hp, hk, ?_⟩
  rw [← target]
  refine ⟨?_, fun apart => ?_⟩
  · have source := lookupTarget_of_prefix le (h.draws.placeholders_nodup few)
      (h.surveyed.resolved_eq h.draws) resolves.source
    have names : (registryAfter d r plan.creations).names = .ofLayout t := by
      rw [registryAfter, Registry.names_given, h.surveyed.names_eq h.draws]
    have panes : (registryAfter d r plan.creations).panes =
        (t.slots request.tables).map (·.ref) := by
      rw [registryAfter, Registry.panes_given, h.surveyed.panes_eq h.draws]
    have sections := h.lookups few
    rw [lookup_reached h.reached] at sections
    exact Layout.sectionIn_of_lookupTarget names panes sections source
  · obtain ⟨ends, hends, -, columns⟩ := resolves.fits
    refine ⟨ends, ?_, columns⟩
    rw [← hends]
    refine (h.surveyed.ends_eq h.draws hl _ ?_ (registryAfter d r cs).pending).symm
    intro n hn given
    rw [given_ids] at given
    exact apart n hn (h.draws.creations_length ▸ Document.nextSections_subset le.length_le given)

theorem setLink_mem (few : t.newPanes.length ≤ UInt32.size) {owner : SectionId} {tuple : LinkTuple} :
    .setLink owner tuple ∈ ms ↔
      ∃ i, p.tuples.get? i = some tuple ∧ (sectionsOn d t)[i]? = some owner := by
  rw [h.mutations_eq few, Plan.bundle, List.mem_cons, List.mem_append, Mutation.mem_links]
  constructor
  · rintro (set | ⟨i, tuple', owner', ht, hi, set⟩ | text)
    · cases set
    · cases set
      exact ⟨i, SortedMap.get?_eq_some_iff.2 ht, hi⟩
    · obtain ⟨_, _, _, _, _, _, set⟩ := Mutation.mem_texts text
      cases set
  · rintro ⟨i, ht, hi⟩
    exact .inr (.inl ⟨i, tuple, owner, SortedMap.get?_eq_some_iff.1 ht, hi, rfl⟩)

end
end Prepared

namespace Finished

variable {d : Document α} {config : CompilerConfig} {request : LayoutRequest α} {t : Layout α}
  {plan : Plan α} {r : Registry} {s : Surroundings} {p : Progress} {e : Document α}
  {o : CompileOutcome α} {d' : Document α} (h : Finished d config request t plan r s p e o d')
include h

theorem created_eq : o.created = d.nextSections t.newPanes.length := by
  rw [h.created, h.reached.created, Document.made_ids, h.draws.creations_length]

theorem created_length : o.created.length = t.newPanes.length := by
  rw [h.created_eq, Document.nextSections_length]

theorem few_of_created (distinct : o.created.Nodup) : t.newPanes.length ≤ UInt32.size := by
  rw [← h.created_length]
  exact sections_length_le distinct

end Finished
end PaneLayout.Compile

/-- Orders and customers, and a page with a widget that shows the orders. -/
def PaneLayout.Document.shop : Document Rat :=
  ((empty.addTable "Orders" [("Total", "Numeric")] none).addTable "Customers" [] none).addWidget ⟨1⟩
    (.create ⟨7⟩ ⟨1⟩ .grid)
