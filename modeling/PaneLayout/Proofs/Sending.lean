import Mathlib.Data.List.Forall2
import PaneLayout.Proofs.Deferral

set_option autoImplicit false

/-!
# The bundle on any client

What is sent once everything is created and no link is waiting: the page of the layout over the
sections of its panes, a link for each linked pane and the texts of each pane that has any, both in
the order of the panes.
-/

namespace PaneLayout

variable {α σ : Type}

def Pane.hasTexts (p : Pane) : Bool := p.title.isSome || p.description.isSome

/-- The bundle for a layout whose panes have the sections `ss` and link by the tuples that `leads`
says. -/
def Layout.IsBundle [Scalar α] (t : Layout α) (leads : Pane → LinkTuple → Prop)
    (ss : List SectionId) (view : ViewRef) (ms : List (Mutation α)) : Prop :=
  ss.length = t.panes.length ∧
  ∃ page links texts, ms = .setLayout view page :: (links ++ texts) ∧
    page.leaves = ss ∧ t.shape = some page.shape ∧
    List.Forall₂ (fun x m => ∃ tuple, leads x.1 tuple ∧ m = .setLink x.2 tuple)
      ((t.panes.zip ss).filter fun x => x.1.link.isSome) links ∧
    texts = ((t.panes.zip ss).filter fun x => x.1.hasTexts).map fun x =>
      .setSectionInfo x.2 x.1.title x.1.description

theorem Layout.IsBundle.mono [Scalar α] {t : Layout α} {leads leads' : Pane → LinkTuple → Prop}
    {ss : List SectionId} {view : ViewRef} {ms : List (Mutation α)}
    (h : t.IsBundle leads ss view ms) (more : ∀ p tuple, leads p tuple → leads' p tuple) :
    t.IsBundle leads' ss view ms := by
  obtain ⟨len, page, links, texts, split, leaves, shape, linked, told⟩ := h
  refine ⟨len, page, links, texts, split, leaves, shape, linked.imp ?_, told⟩
  rintro x m ⟨tuple, led, rfl⟩
  exact ⟨tuple, more x.1 tuple led, rfl⟩

/-- The tuple is that of the pane. -/
def Progress.Holds (p : Progress) (t : Layout α) (pane : Pane) (tuple : LinkTuple) : Prop :=
  ∃ i, t.panes[i]? = some pane ∧ p.tuples.get? i = some tuple

namespace Mutation

theorem getElem?_after (before : List SectionId) (id : SectionId) (ss : List SectionId) :
    (before ++ id :: ss)[before.length]? = some id := by
  rw [List.getElem?_append_right (Nat.le_refl _), Nat.sub_self]
  rfl

/-- Of panes that follow those with the sections `before`, the linked ones have the links. -/
theorem links_of_panes {leads : Pane → LinkTuple → Prop} {ps : List Pane} {ss : List SectionId}
    (before : List SectionId) (len : ps.length = ss.length) {es : List (Nat × LinkTuple)}
    (keys : es.map (·.1) =
      ((ps.zipIdx before.length).filter fun x => x.1.link.isSome).map (·.2))
    (led : ∀ x ∈ ps.zipIdx before.length, ∀ e ∈ es, e.1 = x.2 → leads x.1 e.2) :
    List.Forall₂ (fun (x : Pane × SectionId) m => ∃ tuple, leads x.1 tuple ∧ m = .setLink x.2 tuple)
      ((ps.zip ss).filter fun x => x.1.link.isSome)
      (links (before ++ ss) es : List (Mutation α)) := by
  induction ps generalizing ss before es with
  | nil =>
    obtain rfl := List.map_eq_nil_iff.1 keys
    exact .nil
  | cons p ps ih =>
    obtain ⟨id, ss, rfl⟩ := List.exists_cons_of_length_eq_add_one len.symm
    have rest := @ih ss (before ++ [id]) (Nat.succ.inj len)
    rw [List.append_assoc, List.singleton_append, List.length_append, List.length_singleton] at rest
    rw [List.zipIdx_cons, List.filter_cons] at keys
    rw [List.zipIdx_cons] at led
    obtain ⟨first, led⟩ := List.forall_mem_cons.1 led
    rw [List.zip_cons_cons, List.filter_cons]
    by_cases linked : p.link.isSome = true
    · rw [if_pos linked] at keys ⊢
      cases es with
      | nil => cases keys
      | cons e es =>
        obtain ⟨here, keys⟩ := List.cons.inj keys
        have at_e : (before ++ id :: ss)[e.1]? = some id := by
          change e.1 = before.length at here
          rw [here, getElem?_after]
        rw [links_cons at_e]
        refine .cons ⟨e.2, first e List.mem_cons_self here, rfl⟩ (rest keys fun x hx e' he' => ?_)
        exact led x hx e' (List.mem_cons_of_mem e he')
    · rw [if_neg linked] at keys ⊢
      exact rest keys led

theorem texts_of_panes {ps : List Pane} {ss : List SectionId} (before : List SectionId)
    (len : ps.length = ss.length) : (texts (before ++ ss)
      ((ps.zipIdx before.length).map fun x => (x.2, x.1.title, x.1.description)) :
      List (Mutation α)) =
    ((ps.zip ss).filter fun x => x.1.hasTexts).map fun x =>
      .setSectionInfo x.2 x.1.title x.1.description := by
  induction ps generalizing ss before with
  | nil => rfl
  | cons p ps ih =>
    obtain ⟨id, ss, rfl⟩ := List.exists_cons_of_length_eq_add_one len.symm
    have rest := @ih ss (before ++ [id]) (Nat.succ.inj len)
    rw [List.append_assoc, List.singleton_append, List.length_append, List.length_singleton] at rest
    rw [List.zipIdx_cons, List.map_cons, List.zip_cons_cons, List.filter_cons]
    by_cases bare : (p.title.isNone && p.description.isNone) = true
    · have silent : ¬ p.hasTexts = true := by
        simpa [Pane.hasTexts] using bare
      rw [texts_cons_bare bare, rest, if_neg silent]
    · have told : p.hasTexts = true := by
        simp only [Bool.and_eq_true, Option.isNone_iff_eq_none, not_and_or] at bare
        simpa [Pane.hasTexts, Option.isSome_iff_ne_none] using bare
      rw [texts_cons_told bare (getElem?_after before id ss), rest, if_pos told]
      rfl

end Mutation

namespace Compile

namespace Populated

variable [Scalar α] {client : Client α σ} {config : CompilerConfig} {request : LayoutRequest α}
  {t : Layout α} {plan : Plan α} {s : Surroundings} {r : Registry}
  {xs : List (PlaceholderId × SectionId)} {p : Progress} {st : Schooled σ}
  (h : Populated client config request t plan r s xs p st)
include h

theorem resolved : p.registry.resolved = SortedMap.insertAll ∅ xs := by
  rw [h.standing.registry]
  change (r.given xs).resolved = _
  rw [Registry.resolved_given, h.registry]
  exact congrArg (SortedMap.insertAll · xs) h.draws.resolved

theorem panes_eq : p.registry.panes = (t.slots request.tables).map (·.ref) := by
  rw [h.standing.registry]
  change (r.given xs).panes = _
  rw [Registry.panes_given, h.registry]
  exact h.draws.registered

theorem names_eq : p.registry.names = .ofLayout t := by
  rw [h.standing.registry, ← h.draws.names]
  change (r.given xs).names = _
  rw [Registry.names_given, h.registry]

/-- Past the last creation every pane has a section. -/
theorem sections : ∃ ss : List SectionId,
    (t.slots request.tables).map (fun slot => p.registry.lookup slot.ref) = ss.map some := by
  apply exists_map_some
  intro slot hs
  refine Slot.lookup_isSome_of_number h.draws.mapped ?_ hs
  intro q hq
  rw [h.resolved]
  refine (SortedMap.contains_insertAll _ _ q).2 (.inr ?_)
  rw [h.placeholders, h.draws.placeholders_eq]
  exact hq

/-- Unless placeholders ran out, the new panes have the new sections, in order. -/
theorem sections_eq (few : t.newPanes.length ≤ UInt32.size) :
    (t.slots request.tables).map (fun slot => p.registry.lookup slot.ref) =
      (Pane.assignedSections t.panes (p.created.map (·.id))).map some := by
  have placeholders : xs.map (·.1) = Slot.placeholders (t.slots request.tables) := by
    rw [h.placeholders, h.draws.placeholders_eq]
  refine Slot.number_lookup 0 0 _ h.draws.mapped ?_ ?_
  · have len := congrArg List.length placeholders
    rw [List.length_map] at len
    rw [h.standing.created, List.length_map]
    exact len.symm
  · intro x hx
    have pairs : (Slot.placeholders (t.slots request.tables)).zip (p.created.map (·.id)) = xs := by
      rw [← placeholders, h.standing.created]
      exact (List.zip_of_prod rfl rfl).symm
    rw [h.resolved]
    refine SortedMap.get?_insertAll_of_mem ?_ (by rw [← pairs]; exact hx)
    rw [h.placeholders]
    exact h.draws.placeholders_nodup few

/-- Once no link is waiting, every link can be resolved. -/
theorem resolvable (drained : p.registry.pending = []) :
    ∀ l ∈ plan.links, p.registry.isResolvable l = true := by
  intro l hl
  by_contra waits
  have queued : l ∈ p.registry.pending := by
    rw [h.standing.waiting_eq]
    exact List.mem_filter.2 ⟨hl, by simpa using waits⟩
  rw [drained] at queued
  cases queued

/-- Then every pane with a link has a tuple. -/
theorem keys_eq (drained : p.registry.pending = []) : p.tuples.toList.map (·.1) =
    (t.panes.zipIdx.filter fun x => x.1.link.isSome).map (·.2) := by
  have all : plan.links.filter p.registry.isResolvable = plan.links :=
    List.filter_eq_self.2 (h.resolvable drained)
  rw [← h.draws.owners_eq, ← all]
  exact h.standing.keys_eq h.draws.owners_increasing

/-- A link belongs to one of the panes. -/
theorem owned (drained : p.registry.pending = []) {ss : List SectionId}
    (len : t.panes.length = ss.length) : ∀ i, p.tuples.contains i = true → i < ss.length := by
  intro i hi
  rw [← p.tuples.mem_keys] at hi
  change i ∈ p.tuples.toList.map (·.1) at hi
  rw [h.keys_eq drained, List.mem_map] at hi
  obtain ⟨⟨q, j⟩, hq, rfl⟩ := hi
  rw [← len]
  exact List.snd_lt_of_mem_zipIdx (List.mem_of_mem_filter hq)

/-- And the bundle can be put together, of the tuples of the panes. -/
theorem bundle (drained : p.registry.pending = []) {ss : List SectionId}
    (sections : (t.slots request.tables).map (fun slot => p.registry.lookup slot.ref) =
      ss.map some) (view : ViewRef) :
    ∃ page ms, (settledPlan plan p).nativeLayout = .ok page ∧
      (settledPlan plan p).mutations view page p.tuples = .ok ms ∧
      t.IsBundle (p.Holds t) ss view ms := by
  have assigned := assigned_of_lookup h.draws sections
  have len : t.panes.length = ss.length := by
    rw [← h.draws.panes_length]
    exact assigned.length
  obtain ⟨page, hpage, leaves, shape⟩ := Plan.nativeLayout_eq assigned
  have index := index_lt h.draws assigned
  refine ⟨page, _, hpage, Plan.mutations_eq assigned view page (h.owned drained len) index, len.symm,
    page, _, _, rfl, leaves, ?_, ?_, ?_⟩
  · rw [shape]
    exact h.draws.shape
  · refine Mutation.links_of_panes [] len (h.keys_eq drained) ?_
    rintro ⟨pane, i⟩ hx ⟨j, tuple⟩ he same
    obtain rfl : j = i := same
    exact ⟨j, List.mem_zipIdx_iff_getElem?.1 hx, SortedMap.get?_eq_some_iff.2 he⟩
  · change Mutation.texts ss (plan.panes.map (·.texts)) = _
    rw [texts_of_draws h.draws, List.mapIdx_eq_zipIdx_map]
    exact Mutation.texts_of_panes [] len

end Populated

/-! ## The end of a run -/

/-- Nothing keeps the run from sending the bundle `ms`, the panes having the sections `ss`. -/
structure Sends [Scalar α] (request : LayoutRequest α) (t : Layout α) (p : Progress)
    (view : ViewRef) (ss : List SectionId) (ms : List (Mutation α)) : Prop where
  drained : p.registry.pending = []
  opened : p.view = some view
  sections : (t.slots request.tables).map (fun slot => p.registry.lookup slot.ref) = ss.map some
  bundle : t.IsBundle (p.Holds t) ss view ms

/-- Past the last creation there are four ways to end, of which two have sent the bundle. -/
theorem Populated.conclude_yields [Scalar α] {client : Client α σ} {config : CompilerConfig}
    {request : LayoutRequest α} {t : Layout α} {plan : Plan α} {s : Surroundings} {r : Registry}
    {xs : List (PlaceholderId × SectionId)} {p : Progress} {st : Schooled σ}
    (h : Populated client config request t plan r s xs p st) (id : Uuid)
    {Q : CompileOutcome α → Schooled σ → Prop} {E : CompileError → Schooled σ → Prop}
    (waiting : p.registry.pending ≠ [] →
      E (.danglingLinkTarget (dangling plan p.registry.pending) p.created) st)
    (homeless : p.registry.pending = [] → E (.malformed .noView) st)
    (refused : ∀ view ss ms f, Sends request t p view ss ms →
      (client.applyMutations ms st.engine).1 = .error f →
      E (.collaboratorFailure (.applyMutations f.index? ((f.index?.bind (ms[·]?)).map (·.kind)))
        f.message p.created) { st with engine := (client.applyMutations ms st.engine).2 })
    (sent : ∀ view ss ms o, Sends request t p view ss ms →
      (client.applyMutations ms st.engine).1 = .ok () → o.mutations = ms →
      Q o { st with engine := (client.applyMutations ms st.engine).2 }) :
    (conclude client id plan s p).Yields st Q E := by
  unfold conclude
  by_cases drained : p.registry.pending = []
  · have idle : ¬ (!p.registry.pending.isEmpty) = true := by simp [drained]
    rw [if_neg idle]
    cases opened : p.view with
    | none => exact homeless drained
    | some view =>
      obtain ⟨ss, sections⟩ := h.sections
      have assigned := assigned_of_lookup h.draws sections
      obtain ⟨page, ms, hpage, hms, bundle⟩ := h.bundle drained sections view
      obtain ⟨ws, hws⟩ := finalWidgets_total (s := s) (p := p) assigned (index_lt h.draws assigned)
      have sends : Sends request t p view ss ms := ⟨drained, opened, sections, bundle⟩
      rw [settledPlan] at hpage hms hws
      dsimp only
      rw [Run.yields_bind, yields_liftExcept, hpage]
      dsimp only
      rw [Run.yields_bind, yields_liftExcept, hms]
      dsimp only
      rw [Run.yields_bind, applyBundle, Run.yields_ofReply]
      dsimp only
      cases answer : (client.applyMutations ms st.engine).1 with
      | error f => exact refused view ss ms f sends answer
      | ok =>
        dsimp only
        rw [Run.yields_bind, yields_liftExcept, hws]
        exact sent view ss ms _ sends answer rfl
  · have busy : (!p.registry.pending.isEmpty) = true := by simpa using drained
    rw [if_pos busy]
    cases p.view <;> exact waiting drained

end Compile
end PaneLayout
