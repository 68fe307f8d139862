import PaneLayout.Proofs.Failure
import PaneLayout.Proofs.Numbering
import PaneLayout.Proofs.Violations

set_option autoImplicit false

/-!
# Links that lead nowhere

Which links are reported once everything is created, on any client. They are read off the layout,
the widgets that were there and the sections of the panes. When and how often the queue was drained
plays no part.
-/

namespace PaneLayout

variable {α σ : Type}

/-- No pane has the name, or no widget that was read and no pane has the number. -/
def LinkTarget.isLost (t : Layout α) (read : SortedMap SectionId WidgetInfo)
    (ss : List SectionId) : LinkTarget → Bool
  | .name key => decide ((NameIndex.ofLayout t).resolve key = .missing)
  | .id n => !read.contains n && !ss.contains n

/-- The links with lost targets, in the order of their panes. -/
def Layout.lost (t : Layout α) (read : SortedMap SectionId WidgetInfo) (ss : List SectionId) :
    List DanglingLink :=
  (t.bonds.filter fun b => b.link.source.isLost t read ss).map fun b =>
    ⟨b.pane.label, b.link.source⟩

/-- The widget is the one that the new pane asks for. -/
def Pane.Asks (tables : TableMap) (p : Pane) (w : WidgetInfo) : Prop :=
  ∃ name type info table, p = .new name type info ∧ tables.get? name = some table ∧
    w = .create w.id table type

/-! ## Links of a plan -/

def Bond.pending (t : Layout α) (b : Bond) : PendingLink :=
  ⟨b.index, t.refAt b.index b.pane, b.link.source, b.link⟩

namespace Plan.Draws

variable [Scalar α] {plan : Plan α} {tables : TableMap} {t : Layout α} (h : plan.Draws tables t)
include h

theorem links_bonds : plan.links = t.bonds.map (·.pending t) := by
  rw [h.follows.links, Layout.bonds, List.map_filterMap]
  simp only [Option.map_map]
  rfl

theorem labelOf_eq {i : Nat} {p : Pane} (hp : t.panes[i]? = some p) :
    Compile.labelOf plan i = p.label := by
  rw [Compile.labelOf, h.follows.panes, List.getElem?_mapIdx, hp]
  rfl

theorem owner_isSome {r : Registry} {ss : List SectionId}
    (sections : (t.slots tables).map (fun slot => r.lookup slot.ref) = ss.map some)
    {l : PendingLink} (hl : l ∈ plan.links) : (r.lookup l.owner).isSome := by
  obtain ⟨slot, hs, k, -, rfl⟩ := h.mem_links.1 hl
  exact Option.isSome_iff_exists.2 (exists_of_map_some sections hs)

end Plan.Draws

namespace Compile.Populated

variable [Scalar α] {client : Client α σ} {config : CompilerConfig} {request : LayoutRequest α}
  {t : Layout α} {plan : Plan α} {s : Surroundings} {r : Registry}
  {xs : List (PlaceholderId × SectionId)} {p : Progress} {st : Schooled σ}
  (h : Populated client config request t plan r s xs p st)
include h

theorem created_length : (p.created.map (·.id)).length = Pane.newCount t.panes := by
  have len := congrArg List.length h.placeholders
  rw [List.length_map, List.length_map, h.draws.creations_length] at len
  rw [h.standing.created, List.length_map]
  exact len

/-- A number is known exactly if there was a widget or if there is a pane. -/
theorem mem_known (n : SectionId) : n ∈ p.registry.known ↔ s.widgets.contains n = true ∨
    n ∈ Pane.assignedSections t.panes (p.created.map (·.id)) := by
  have now : n ∈ p.registry.known ↔ s.widgets.contains n = true ∨ n ∈ p.created.map (·.id) := by
    rw [h.standing.registry, ← h.known, h.standing.created]
    exact Registry.mem_known_given r xs n
  rw [now, (Pane.assignedSections_perm h.created_length).mem_iff, List.mem_append]
  constructor
  · exact Or.imp_right .inr
  · rintro (read | old | new)
    · exact .inl read
    · obtain ⟨pane, hp, real⟩ := List.mem_filterMap.1 old
      exact .inl ((h.known n).1 (h.kept ((h.draws.known n).2 ⟨pane, hp, real⟩)))
    · exact .inr new

/-- A name leads to a section exactly if it denotes one pane. -/
theorem lookupTarget_name (key : String) : (p.registry.lookupTarget (.name key)).isSome ↔
    ∃ i, (NameIndex.ofLayout t).resolve key = .unique i := by
  rw [Registry.lookupTarget, h.names_eq, h.panes_eq]
  cases denotes : (NameIndex.ofLayout t).resolve key with
  | ambiguous is => simp [NameMatch.unique?]
  | missing => simp [NameMatch.unique?]
  | unique i =>
    refine iff_of_true ?_ ⟨i, rfl⟩
    have here : i ∈ (t.denoted key).indices := by
      rw [← t.resolve_ofLayout, denotes]
      exact List.mem_singleton_self i
    obtain ⟨pane, hp, -⟩ := Layout.carries_of_mem_indices here
    obtain ⟨slot, hs, -⟩ := Layout.slots_of_pane request.tables hp
    obtain ⟨ss, sections⟩ := h.sections
    simp only [NameMatch.unique?, Option.bind_some, List.getElem?_map, hs, Option.map_some]
    exact Option.isSome_iff_exists.2 (exists_of_map_some sections (List.mem_of_getElem? hs))

/-- What waits is lost: every pane has its section, and no name is ambiguous. -/
theorem isResolvable_eq {b : Bond} (hb : b ∈ t.bonds) :
    p.registry.isResolvable (b.pending t) =
      !b.link.source.isLost t s.widgets (Pane.assignedSections t.panes (p.created.map (·.id))) := by
  obtain ⟨ss, sections⟩ := h.sections
  have pending : b.pending t ∈ plan.links := by
    rw [h.draws.links_bonds]
    exact List.mem_map_of_mem hb
  rw [Registry.isResolvable, h.draws.owner_isSome sections pending, Bool.true_and]
  change (p.registry.lookupTarget b.link.source).isSome = _
  rw [Bool.eq_iff_iff, Bool.not_eq_true', Bool.eq_false_iff]
  cases target : b.link.source with
  | id n =>
    simp only [Registry.lookupTarget, List.contains_iff_mem, Option.isSome_ite, h.mem_known,
      LinkTarget.isLost]
    cases s.widgets.contains n <;> simp
  | name key =>
    have clear := (Layout.validate_eq_nil_iff_wellFormed t).1 h.valid |>.clear b hb key
    rw [h.lookupTarget_name, LinkTarget.isLost, ne_eq, decide_eq_true_eq]
    cases denotes : (NameIndex.ofLayout t).resolve key with
    | unique i => simp
    | ambiguous is => exact absurd (t.resolve_ofLayout key ▸ denotes) (clear is target)
    | missing => simp

/-- The report names the lost links, in their order. -/
theorem dangling_eq : dangling plan p.registry.pending =
    t.lost s.widgets (Pane.assignedSections t.panes (p.created.map (·.id))) := by
  rw [h.standing.waiting_eq, dangling, Layout.lost]
  have waiting : (plan.links.filter fun l => !p.registry.isResolvable l) =
      (t.bonds.filter fun b => b.link.source.isLost t s.widgets
        (Pane.assignedSections t.panes (p.created.map (·.id)))).map (·.pending t) := by
    rw [h.draws.links_bonds, List.filter_map]
    refine congrArg (List.map _) (List.filter_congr fun b hb => ?_)
    rw [Function.comp_apply, h.isResolvable_eq hb, Bool.not_not]
  rw [waiting, List.map_map]
  refine List.map_congr_left fun b hb => ?_
  have owner := (Layout.mem_bonds.1 (List.mem_of_mem_filter hb)).1
  exact congrArg (DanglingLink.mk · b.link.source) (h.draws.labelOf_eq owner)

end Compile.Populated

/-! ## The report -/

/-- The widgets that a run has made are those that the first new panes ask for. -/
theorem Creating.asked {request : LayoutRequest α} {t : Layout α} (layout : request.layout = some t)
    {ws : List CreatedWidget} {es : List (Event α)} (h : Creating request ws es) :
    List.Forall₂ (Pane.Asks request.tables) (t.newPanes.take ws.length) (madeIn es) := by
  induction h with
  | start => exact .nil
  | @read _ es _ _ read ih =>
    rw [madeIn_reads es (List.forall_mem_singleton.2 read)]
    exact ih
  | @create ws es table type w _ due ih =>
    obtain ⟨t', name, info, same, new, found⟩ := due
    obtain rfl := Option.some.inj (layout.symm.trans same)
    rw [List.length_append, List.length_singleton, List.take_add_one, new, madeIn_concat]
    exact List.rel_append ih (.cons ⟨name, type, info, table, rfl, found, rfl⟩ .nil)

namespace Compile

/-- What is reported of lost links, with the trace of the run. -/
structure Reports (request : LayoutRequest α) (t : Layout α) (lost : List DanglingLink)
    (res : Except CompileError (CompileOutcome α)) (es : List (Event α)) : Prop where
  dangling : ∀ links created, res = .error (.danglingLinkTarget links created) ↔
    lost ≠ [] ∧ links = lost ∧ created = madeIn es
  /-- Every new pane has its widget. -/
  created : lost ≠ [] → List.Forall₂ (Pane.Asks request.tables) t.newPanes (madeIn es)
  unsent : lost ≠ [] → Unsent es

theorem reports_none {request : LayoutRequest α} {t : Layout α}
    {res : Except CompileError (CompileOutcome α)}
    (other : ∀ links created, res ≠ .error (.danglingLinkTarget links created))
    (es : List (Event α)) : Reports request t [] res es where
  dangling links created := iff_of_false (other links created) fun some => some.1 rfl
  created some := absurd rfl some
  unsent some := absurd rfl some

variable [Scalar α]

/-- The rest of a run reports the lost links if there are any. -/
theorem Populated.conclude_reports {client : Client α σ} {config : CompilerConfig}
    {request : LayoutRequest α} {t : Layout α} {plan : Plan α} {s : Surroundings} {r : Registry}
    {xs : List (PlaceholderId × SectionId)} {p : Progress} {st : Schooled (Traced α σ)}
    (h : Populated client.traced config request t plan r s xs p st) (id : Uuid)
    (all : p.created = madeIn st.trace)
    (asked : List.Forall₂ (Pane.Asks request.tables) t.newPanes (madeIn st.trace))
    (unsent : Unsent st.trace) {lost : List DanglingLink}
    (left : dangling plan p.registry.pending = lost) :
    (conclude client.traced id plan s p).Yields st
      (fun o st' => Reports request t lost (.ok o) st'.trace)
      fun err st' => Reports request t lost (.error err) st'.trace := by
  have none (drained : p.registry.pending = []) : lost = [] := by
    rw [← left, drained]
    rfl
  refine h.conclude_yields id ?_ ?_ ?_ ?_
  · intro waiting
    have some : lost ≠ [] := fun empty => waiting (List.map_eq_nil_iff.1 (left.trans empty))
    refine ⟨fun links created => ?_, fun _ => asked, fun _ => unsent⟩
    rw [left, all, Except.error.injEq, CompileError.danglingLinkTarget.injEq, and_iff_right some,
      eq_comm (a := lost), eq_comm (a := madeIn st.trace)]
  · intro drained
    rw [none drained]
    exact reports_none (fun links created same => by cases same) _
  · intro view ss ms f sends _
    rw [none sends.drained]
    exact reports_none (fun links created same => by cases same) _
  · intro view ss ms o sends _ _
    rw [none sends.drained]
    exact reports_none (fun links created same => by cases same) _

/-- A run past its last creation can be followed with a trace. -/
theorem populate_traced {client : Client α σ} {config : CompilerConfig} {request : LayoutRequest α}
    {s₀ : σ} {x : Plan α × Surroundings × Progress} {st : Schooled σ}
    (run : (populate client config request).start (.fresh s₀) = (.ok x, st)) :
    ∃ st', (populate client.traced config request).start (.fresh (s₀, [])) = (.ok x, st') := by
  have mirrored := (mirrors_populating client.mirrors_traced).populate config request
    (.fresh (s₀, []))
  rw [show (Schooled.fresh ((s₀, []) : Traced α σ)).map Prod.fst = .fresh s₀ from rfl, run] at mirrored
  exact ⟨_, Prod.ext (Prod.mk.inj mirrored).1.symm rfl⟩

end Compile

open Compile

variable [Scalar α]

/-- Whatever the client, once the last creation is over exactly the lost links are reported, with all
widgets that have been created, and nothing is sent. -/
theorem lost_links_reported (client : Client α σ) (config : CompilerConfig) (id : Uuid)
    (request : LayoutRequest α) (s₀ : σ) {plan : Plan α} {s : Surroundings} {p : Progress}
    {st : Schooled σ}
    (run : (populate client config request).start (.fresh s₀) = (.ok (plan, s, p), st)) :
    ∃ t ss es, request.layout = some t ∧
      ss = Pane.assignedSections t.panes (p.created.map (·.id)) ∧
      (t.newPanes.length ≤ UInt32.size → (settledPlan plan p).Assigned ss) ∧
      compile client.traced config id request (s₀, []) =
        ((compile client config id request s₀).1, (compile client config id request s₀).2, es) ∧
      Reports request t (t.lost s.widgets ss) (compile client config id request s₀).1 es := by
  obtain ⟨es, traced⟩ := compile_traced client config id request s₀
  obtain ⟨st₁, run₁⟩ := populate_traced run
  obtain ⟨t, r, xs, populated⟩ := (populate_stands client.traced config request _).ok run₁
  have all : p.created = madeIn st₁.trace := (populate_accounts client config request rfl).ok run₁
  obtain ⟨ws, len, made⟩ := (populate_plays client config request _ rfl).ok run₁
  have asked := made.history.asked populated.layout
  rw [len, populated.draws.creations_length, List.take_length] at asked
  have start : Unsent (Schooled.fresh ((s₀, []) : Traced α σ)).trace :=
    fun _ _ none => nomatch none
  have unsent := (unsent_populating client).populate config request _ start
  rw [run₁] at unsent
  refine ⟨t, _, es, populated.layout, rfl,
    fun few => assigned_of_lookup populated.draws (populated.sections_eq few), traced, ?_⟩
  have reports := populated.conclude_reports id all asked unsent populated.dangling_eq
  rcases run₂ : (conclude client.traced id plan s p).start st₁ with ⟨res, st₂⟩
  have ends : compile client.traced config id request (s₀, []) = (res, st₂.engine) := by
    rw [compile, compileRun_eq, Run.start_bind, run₁]
    exact congrArg (fun x => (x.1, x.2.engine)) run₂
  obtain ⟨result, engine⟩ := Prod.mk.inj (traced.symm.trans ends)
  have trace : st₂.trace = es := by rw [Schooled.trace, ← engine]
  rw [result, ← trace]
  cases res with
  | error err => exact reports.error run₂
  | ok o => exact reports.ok run₂

/-- The orders that are there look for a pane that is missing, and their buyers for widget 404. -/
def Document.strayLayout : Layout Rat :=
  .split .horizontal [
    .pane (.existing ⟨7⟩ ⟨none, none, none, some (.childOf (.name "Ghost"))⟩),
    .pane (.new "Customers" .grid ⟨some "buyers", none, none, some (.syncedWith (.id ⟨404⟩))⟩),
    .pane (.new "Orders" .card ⟨none, some "One order", none, some (.syncedWith (.name "buyers"))⟩)]
    none

/-- Both strays are reported, and with them the two widgets that stay behind. -/
theorem lost_links_reported_stray : ∃ plan s p st,
    (populate Document.client .standard
      ⟨some ⟨1⟩, Document.shop.tableMap, some Document.strayLayout⟩).start (.fresh Document.shop) =
      (.ok (plan, s, p), st) ∧
    ∃ links created, (compile Document.client .standard ⟨0⟩
        ⟨some ⟨1⟩, Document.shop.tableMap, some Document.strayLayout⟩ Document.shop).1 =
        .error (.danglingLinkTarget links created) ∧
      links.map (·.target) = [.name "Ghost", .id ⟨404⟩] ∧ created.length = 2 := by
  obtain ⟨⟨plan, s, p⟩, st, run, found⟩ := exists_ok_of_test
    (fun (_, s, p) _ => decide ((Document.strayLayout.lost s.widgets
      (Pane.assignedSections Document.strayLayout.panes
        (p.created.map WidgetInfo.id))).map DanglingLink.target = [.name "Ghost", .id ⟨404⟩]))
    (x := (populate Document.client .standard
      ⟨some ⟨1⟩, Document.shop.tableMap, some Document.strayLayout⟩).start (.fresh Document.shop))
    (by decide +kernel)
  have targets := of_decide_eq_true found
  obtain ⟨t, ss, es, layout, rfl, -, -, reports⟩ :=
    lost_links_reported Document.client .standard ⟨0⟩ _ Document.shop run
  obtain rfl := Option.some.inj layout
  have lost : Document.strayLayout.lost s.widgets
      (Pane.assignedSections Document.strayLayout.panes (p.created.map (·.id))) ≠ [] := by
    intro none
    rw [none] at targets
    cases targets
  exact ⟨plan, s, p, st, run, _, _, (reports.dangling _ _).2 ⟨lost, rfl, rfl⟩, targets,
    (reports.created lost).length_eq.symm⟩

end PaneLayout
