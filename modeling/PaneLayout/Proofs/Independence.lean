import PaneLayout.Proofs.Pacing
import PaneLayout.Proofs.Parallel

set_option autoImplicit false

/-!
# Independent pages

Compilations that create nothing write to one page each. What such a compilation reads of other
pages is which widgets there are, and of which tables, and this no bundle changes. So on two pages
the order does not matter: each ends as it would end alone, whether it succeeds or fails.
-/

namespace PaneLayout

variable {α : Type}

/-- The outcome whatever id was chosen for it. -/
def CompileOutcome.unnamed (o : CompileOutcome α) : CompileOutcome α := { o with id := ⟨0⟩ }

namespace Compile

variable {d e : Document α}

/-- Neither run has changed its document so far. -/
abbrev BothRead (d e : Document α) : Document α → Document α → Prop :=
  fun s s' => d.OnlyRead s ∧ e.OnlyRead s'

theorem paced_documents (tables : e.tables = d.tables) : Schooling
    (fun {β} (x y : LinkRun (Document α) β) => x.Paced (BothRead d e) y) Document.client
    Document.client := by
  refine paced_schooling (fun read t => ⟨?_, read.1.trans rfl, read.2.trans rfl⟩)
    fun read t => ⟨?_, read⟩
  all_goals
    obtain ⟨left, right⟩ := read
    unfold Document.OnlyRead at left right
    change Document.tableCall _ t _ = Document.tableCall _ t _
    unfold Document.tableCall
    rw [left, right]
    dsimp only
    rw [tables]

/-! ## The surroundings -/

/-- Widgets that were fetched of `d`, and the same ones of `e`. -/
def FetchedAlike (d e : Document α) (ws ws' : SortedMap SectionId WidgetInfo) : Prop :=
  ∀ id, ws.get? id = none ∧ ws'.get? id = none ∨
    ws.get? id = d.widget? id ∧ ws'.get? id = e.widget? id

structure MetAlike (d e : Document α) (s s' : Surroundings) : Prop where
  tables : s'.paneTables = s.paneTables
  widgets : FetchedAlike d e s.widgets s'.widgets

variable {ws ws' : SortedMap SectionId WidgetInfo} {s s' : Surroundings}

theorem FetchedAlike.insert (h : FetchedAlike d e ws ws') {id : SectionId} {w w' : WidgetInfo}
    (hd : d.widget? id = some w) (he : e.widget? id = some w') :
    FetchedAlike d e (ws.insert id w) (ws'.insert id w') := by
  intro j
  rw [SortedMap.get?_insert, SortedMap.get?_insert]
  split
  · next same => exact .inr ⟨by rw [same, hd], by rw [same, he]⟩
  · exact h j

section
variable (alike : d.Resembles e)
include alike

theorem FetchedAlike.table_eq (h : FetchedAlike d e ws ws') (id : SectionId) :
    (ws'.get? id).map (·.table) = (ws.get? id).map (·.table) := by
  rcases h id with ⟨left, right⟩ | ⟨left, right⟩
  · rw [left, right]
  · rw [left, right]
    exact alike.owned id

theorem FetchedAlike.contains_eq (h : FetchedAlike d e ws ws') (id : SectionId) :
    ws'.contains id = ws.contains id := by
  have same := congrArg Option.isSome (h.table_eq alike id)
  rw [Option.isSome_map, Option.isSome_map] at same
  exact same

theorem MetAlike.ends_eq (h : MetAlike d e s s') (r : Registry) (l : PendingLink) :
    s'.ends r l = s.ends r l := by
  have source : s'.sourceTable? r l.target = s.sourceTable? r l.target := by
    unfold Surroundings.sourceTable?
    rw [h.tables]
    cases r.targetPane? l.target with
    | some i => rfl
    | none =>
      cases l.target with
      | id n => exact h.widgets.table_eq alike n
      | name key => rfl
  rw [s.ends_eq_bind, s'.ends_eq_bind, h.tables, source]

theorem widget?_cases (id : SectionId) : d.widget? id = none ∧ e.widget? id = none ∨
    ∃ w w', d.widget? id = some w ∧ e.widget? id = some w' ∧ w'.table = w.table := by
  have owned := alike.owned id
  cases hd : d.widget? id with
  | none =>
    rw [hd] at owned
    exact .inl ⟨rfl, Option.map_eq_none_iff.1 owned⟩
  | some w =>
    rw [hd] at owned
    obtain ⟨w', he, table⟩ := Option.map_eq_some_iff.1 owned
    exact .inr ⟨w, w', rfl, he, table⟩

omit alike

theorem fetch_start {st : Schooled (Document α)} (read : d.OnlyRead st.engine) (id : SectionId) :
    (fetch Document.client id).start st = (.ok (d.widget? id), st) := by
  unfold Document.OnlyRead at read
  have same : st.engine.widget? id = d.widget? id := by
    rw [read]
    rfl
  rw [← same]
  rfl

variable {st st' : Schooled (Document α)}

theorem fetchPanes_alike (alike : d.Resembles e) (ps : List PanePlan) (met : MetAlike d e s s')
    (h : Level (BothRead d e) st st') :
    (fetchPanes Document.client ps s).Pairs (fetchPanes Document.client ps s') st st'
      (fun x x' t t' => x'.2 = x.2 ∧ MetAlike d e x.1 x'.1 ∧ Level (BothRead d e) t t')
      fun _ _ _ _ => False := by
  induction ps generalizing s s' with
  | nil => exact .ok rfl rfl ⟨rfl, met, h⟩
  | cons p ps ih =>
    have tables (t : Option TableRef) : s'.paneTables ++ [t] = s.paneTables ++ [t] := by
      rw [met.tables]
    unfold fetchPanes
    cases p.ref with
    | placeholder q => exact ih ⟨tables p.table, met.widgets⟩
    | real id =>
      dsimp only
      refine Run.Pairs.bind (.ok (fetch_start h.engines.1 id) (fetch_start h.engines.2 id) ?_)
      rcases widget?_cases alike id with ⟨hd, he⟩ | ⟨w, w', hd, he, table⟩
      · rw [hd, he]
        have met : MetAlike d e { s with paneTables := s.paneTables ++ [p.table] }
          { s' with paneTables := s'.paneTables ++ [p.table] } := ⟨tables p.table, met.widgets⟩
        refine Run.Pairs.bind ((ih met).mono ?_ fun _ _ _ _ => False.elim)
        rintro ⟨s₁, _⟩ ⟨s₁', vs⟩ t t' ⟨rfl, met₁, h₁⟩
        exact .ok rfl rfl ⟨rfl, met₁, h₁⟩
      · rw [hd, he]
        dsimp only
        rw [table]
        exact ih ⟨tables (some w.table), met.widgets.insert hd he⟩

theorem fetchTargets_alike (alike : d.Resembles e) (ls : List PendingLink) (r : Registry)
    (fetched : FetchedAlike d e ws ws') (h : Level (BothRead d e) st st') :
    (fetchTargets Document.client ls r ws).Pairs (fetchTargets Document.client ls r ws') st st'
      (fun x x' t t' => x'.1 = x.1 ∧ FetchedAlike d e x.2 x'.2 ∧ Level (BothRead d e) t t')
      fun _ _ _ _ => False := by
  induction ls generalizing r ws ws' with
  | nil => exact .ok rfl rfl ⟨rfl, fetched, h⟩
  | cons l ls ih =>
    unfold fetchTargets
    cases l.target with
    | name key => exact ih r fetched
    | id n =>
      dsimp only
      rw [fetched.contains_eq alike]
      split
      · exact ih r fetched
      · refine Run.Pairs.bind (.ok (fetch_start h.engines.1 n) (fetch_start h.engines.2 n) ?_)
        rcases widget?_cases alike n with ⟨hd, he⟩ | ⟨w, w', hd, he, -⟩
        · rw [hd, he]
          exact ih r fetched
        · rw [hd, he]
          exact ih _ (fetched.insert hd he)

/-! ## Links -/

theorem checkLinks_congr {rules : LinkRules} {plan : Plan α} {r : Registry}
    (ends : ∀ l, s'.ends r l = s.ends r l) (ls : List PendingLink) :
    checkLinks Document.client rules plan r s' ls = checkLinks Document.client rules plan r s ls := by
  induction ls with
  | nil => rfl
  | cons l ls ih =>
    unfold checkLinks
    rw [ends l, ih]

theorem resolveOrDefer_congr {rules : LinkRules} {plan : Plan α}
    (ends : ∀ r l, s'.ends r l = s.ends r l) (ls : List PendingLink) (p : Progress) :
    resolveOrDefer Document.client rules plan s' ls p =
      resolveOrDefer Document.client rules plan s ls p := by
  induction ls generalizing p with
  | nil => rfl
  | cons l ls ih =>
    have here : resolveLink Document.client rules plan p.registry s' l =
        resolveLink Document.client rules plan p.registry s l := by
      unfold resolveLink
      rw [ends]
    unfold resolveOrDefer
    simp only [here, ih]

theorem survey_alike (alike : d.Resembles e) (rules : LinkRules) (plan : Plan α)
    (h : Level (BothRead d e) st st') :
    (survey Document.client rules plan).Pairs (survey Document.client rules plan) st st'
      (fun x x' t t' => x'.1 = x.1 ∧ MetAlike d e x.2 x'.2 ∧ Level (BothRead d e) t t')
      fun err err' t t' => err' = err ∧ Level (BothRead d e) t t' := by
  have blank : MetAlike d e ⟨[], ∅⟩ ⟨[], ∅⟩ := ⟨rfl, fun _ => .inl ⟨rfl, rfl⟩⟩
  unfold survey
  refine Run.Pairs.bind ((fetchPanes_alike alike plan.panes blank h).mono ?_
    fun _ _ _ _ => False.elim)
  rintro ⟨s, _⟩ ⟨s', missing⟩ t t' ⟨rfl, met, h⟩
  dsimp only at met ⊢
  split
  · exact .bind (.error rfl rfl ⟨rfl, h⟩)
  refine Run.Pairs.bind ((fetchTargets_alike alike plan.links plan.registry met.widgets h).mono ?_
    fun _ _ _ _ => False.elim)
  rintro ⟨_, ws⟩ ⟨r, ws'⟩ u u' ⟨rfl, fetched, h⟩
  dsimp only at fetched ⊢
  have after : MetAlike d e ⟨s.paneTables, ws⟩ ⟨s'.paneTables, ws'⟩ := ⟨met.tables, fetched⟩
  rw [checkLinks_congr (after.ends_eq alike r)]
  have checked := (paced_documents alike.tables).checkLinks rules plan r ⟨s.paneTables, ws⟩
    plan.links u u' h
  refine Run.Pairs.bind (checked.mono ?_ fun _ _ _ _ failed => ⟨failed.1, failed.2.2⟩)
  rintro - - v v' ⟨-, h⟩
  exact .ok rfl rfl ⟨rfl, after, h⟩

end

/-! ## Up to the bundle -/

variable [Scalar α] {config : CompilerConfig} {request : LayoutRequest α}

theorem creations_eq_nil (old : ∀ t, request.layout = some t → t.newPanes = []) {plan : Plan α}
    (made : Plan.make request.layout request.tables = .ok plan) : plan.creations = [] := by
  obtain ⟨t, layout, -, draws⟩ := Plan.make_ok made
  rw [← List.length_eq_zero_iff, draws.creations_length, old t layout]
  rfl

theorem populate_alike (old : ∀ t, request.layout = some t → t.newPanes = [])
    (alike : request.view.isSome → d.Resembles e) :
    (populate Document.client config request).Pairs (populate Document.client config request)
      (.fresh d) (.fresh e)
      (fun x x' t t' => x'.1 = x.1 ∧ x'.2.2 = x.2.2 ∧ request.view.isSome ∧
        x.1.creations = [] ∧ MetAlike d e x.2.1 x'.2.1 ∧ Level (BothRead d e) t t')
      fun err err' t t' => err' = err ∧ Level (BothRead d e) t t' := by
  have h : Level (BothRead d e) (.fresh d) (.fresh e) := level_fresh ⟨.refl d, .refl e⟩
  unfold populate
  cases hm : Plan.make request.layout request.tables with
  | error err => exact .bind (.error rfl rfl ⟨rfl, h⟩)
  | ok plan =>
    have nothing := creations_eq_nil old hm
    refine Run.Pairs.bind (.ok rfl rfl ?_)
    by_cases homeless : (request.view.isNone && plan.creations.isEmpty) = true
    · rw [if_pos homeless]
      exact .bind (.error rfl rfl ⟨rfl, h⟩)
    rw [if_neg homeless]
    have given : request.view.isSome := by
      rw [nothing] at homeless
      simpa [Option.isSome_iff_ne_none] using homeless
    have alike := alike given
    refine Run.Pairs.bind ((survey_alike alike _ plan h).mono ?_ fun _ _ _ _ => id)
    rintro ⟨_, s⟩ ⟨r, s'⟩ t t' ⟨rfl, met, h⟩
    dsimp only at met ⊢
    rw [resolveOrDefer_congr (met.ends_eq alike)]
    have resolved := (paced_documents alike.tables).resolveOrDefer
      (.ofConfig request.tables config) plan s plan.links ⟨r, request.view, [], ∅⟩ t t' h
    refine Run.Pairs.bind (resolved.mono ?_ fun _ _ _ _ failed => ⟨failed.1, failed.2.2⟩)
    rintro _ p u u' ⟨rfl, h⟩
    rw [nothing]
    exact .bind (.ok rfl rfl (.ok rfl rfl ⟨rfl, rfl, given, nothing, met, h⟩))

/-! ## The bundle -/

omit [Scalar α] in
/-- Only the widgets of the panes play a part. -/
theorem finalWidgets_congr {plan : Plan α} {s s' : Surroundings} {p : Progress} {qs : List PanePlan}
    (same : ∀ q ∈ qs, ∀ id, plan.sectionOf q.index = .ok id →
      s'.widgets.get? id = s.widgets.get? id) :
    finalWidgets plan s' p qs = finalWidgets plan s p qs := by
  induction qs with
  | nil => rfl
  | cons q qs ih =>
    obtain ⟨here, rest⟩ := List.forall_mem_cons.1 same
    unfold finalWidgets
    rw [ih rest]
    cases own : plan.sectionOf q.index with
    | error err => rfl
    | ok id =>
      simp only [bind, Except.bind]
      rw [here id own]

/-- How two runs for one request end on documents that are alike: with the same result, and having
applied the same mutations, all about the page of the request. -/
structure EndAlike (d e : Document α) (view : Option ViewRef) (ns : List (Mutation α))
    (d' e' : Document α) : Prop where
  left : d.Rewritten view ns d'
  right : e.Rewritten view ns e'

variable {t : Layout α} {plan : Plan α} {r : Registry} {s s' : Surroundings} {p : Progress}
  {view : ViewRef} {page : Native α SectionId} {ms : List (Mutation α)}

omit [Scalar α] in
/-- The bundle of a plan, on two documents that are seen alike from its page. -/
theorem applyMutations_alike {ss : List SectionId} {tuples : SortedMap Nat LinkTuple}
    {f f' : Document α} (calm : d.rejectMutationAt = none) (calm' : e.rejectMutationAt = none)
    (alike : d.Parallels e) (read : d.OnlyRead f) (read' : e.OnlyRead f')
    (bundle : ms = plan.bundle ss view page tuples) (leaves : page.leaves = ss) :
    ∃ ns answer d' e', Document.applyMutations ms f = (answer, d') ∧
      Document.applyMutations ms f' = (answer, e') ∧ EndAlike d e (some view) ns d' e' ∧
      (answer = .ok () → ∀ id ∈ ss, d.widgetViews.get? id = some view) := by
  have same : f.bundling.Parallels f'.bundling := by
    unfold Document.OnlyRead at read read'
    rw [read, read']
    exact ⟨⟨alike.tables, alike.views, alike.owned⟩, alike.pages⟩
  have views : f.widgetViews = d.widgetViews := congrArg (·.widgetViews) read
  have rejecting : f.rejectMutationAt = none := (congrArg (·.rejectMutationAt) read).trans calm
  have rejecting' : f'.rejectMutationAt = none := (congrArg (·.rejectMutationAt) read').trans calm'
  obtain ⟨ns, answer, d', e', run, run', le, taken, left, right, whole⟩ := same.applyFrom 0 ms
  -- Unless it is refused at once, all that the bundle touches is on its page.
  have on : ns ≠ [] → ∀ id ∈ ss, d.widgetViews.get? id = some view := by
    intro some
    obtain ⟨m, ns, rfl⟩ := List.exists_cons_of_ne_nil some
    rw [bundle] at le
    obtain ⟨rfl, -⟩ := List.cons_prefix_cons.1 le
    have takes := (taken _ List.mem_cons_self).2
    rw [leaves] at takes
    exact views ▸ takes
  have about : ∀ m ∈ ns, m.OnPage d view := by
    intro m hm
    have hms := le.subset hm
    rw [bundle] at hms
    exact Plan.bundle_onPage (on (List.ne_nil_of_mem hm)) page tuples m hms
  refine ⟨ns, answer, d', e', ?_, ?_, ⟨?_, ?_⟩, fun ok => on ?_⟩
  · rw [Document.applyMutations, rejecting]
    exact run
  · rw [Document.applyMutations, rejecting']
    exact run'
  · exact Document.rewritten_of_applied read left taken about
  · exact Document.rewritten_of_applied read' right
      (fun m hm => (same.takes_iff m).2 (taken m hm)) fun m hm => (about m hm).congr alike.views
  · rw [whole ok, bundle]
    exact List.cons_ne_nil _ _

omit [Scalar α] in
theorem applyBundle_start {σ : Type} (client : Client α σ) (ms : List (Mutation α))
    (created : List WidgetInfo) (st : Schooled σ) : (applyBundle client ms created).start st =
      ((client.applyMutations ms st.engine).1.mapError fun f => .collaboratorFailure
          (.applyMutations f.index? ((f.index?.bind (ms[·]?)).map (·.kind))) f.message created,
        { st with engine := (client.applyMutations ms st.engine).2 }) := by
  rw [applyBundle, Run.start_ofReply]
  rcases client.applyMutations ms st.engine with ⟨_ | _, _⟩ <;> rfl

omit [Scalar α] in
/-- The sections of a page are the same in documents that are seen alike from it. -/
theorem finalWidgets_alike (seen : d.SeenFrom view e) (met : MetAlike d e s s')
    {ss : List SectionId} (assigned : plan.Assigned ss)
    (on : ∀ id ∈ ss, d.widgetViews.get? id = some view) {qs : List PanePlan}
    (index : ∀ q ∈ qs, q.index < ss.length) :
    finalWidgets plan s' p qs = finalWidgets plan s p qs := by
  refine finalWidgets_congr fun q hq id own => ?_
  obtain ⟨id', hi⟩ : ∃ id', ss[q.index]? = some id' :=
    ⟨_, List.getElem?_eq_getElem (index q hq)⟩
  obtain rfl := Except.ok.inj (own.symm.trans (assigned.sectionOf hi))
  rcases met.widgets id with ⟨left, right⟩ | ⟨left, right⟩
  · rw [left, right]
  · rw [left, right]
    exact seen.own id (on id (List.mem_of_getElem? hi))

theorem conclude_alike {st st' : Schooled (Document α)} (calm : d.rejectMutationAt = none)
    (calm' : e.rejectMutationAt = none) (seen : d.SeenFrom view e)
    (h : Stocked d config request t plan r s p st.engine) (given : request.view = some view)
    (nothing : plan.creations = []) (met : MetAlike d e s s')
    (level : Level (BothRead d e) st st') (id id' : Uuid) :
    (conclude Document.client id plan s p).Pairs (conclude Document.client id' plan s' p) st st'
      (fun o o' u u' => o'.unnamed = o.unnamed ∧
        ∃ ns, EndAlike d e request.view ns u.engine u'.engine)
      fun err err' u u' => err' = err ∧
        ∃ ns, EndAlike d e request.view ns u.engine u'.engine := by
  have still : EndAlike d e request.view [] st.engine st'.engine :=
    ⟨Document.rewritten_of_read level.engines.1 calm _,
      Document.rewritten_of_read level.engines.2 calm' _⟩
  have opened : p.view = some view := by
    rw [h.reached.view, nothing]
    exact given
  obtain ⟨ss, assigned⟩ := exists_assigned h.draws h.reached
  have index := index_lt h.draws assigned
  obtain ⟨page, hpage, leaves, -⟩ := Plan.nativeLayout_eq assigned
  have hms := Plan.mutations_eq assigned view page
    (tuples_lt h.draws h.reached.sound assigned) index
  obtain ⟨ns, answer, d', e', run, run', ends, on⟩ := applyMutations_alike calm calm'
    seen.toParallels level.engines.1 level.engines.2
    (rfl : (settledPlan plan p).bundle ss view page p.tuples = _) leaves
  change (settledPlan plan p).mutations view page p.tuples =
    .ok ((settledPlan plan p).bundle ss view page p.tuples) at hms
  unfold conclude
  by_cases waiting : (!p.registry.pending.isEmpty) = true
  · rw [if_pos waiting, if_pos waiting]
    exact .bind (.error rfl rfl ⟨rfl, [], still⟩)
  rw [if_neg waiting, if_neg waiting, opened, given]
  have sent := applyBundle_start Document.client
    ((settledPlan plan p).bundle ss view page p.tuples) p.created st
  have sent' := applyBundle_start Document.client
    ((settledPlan plan p).bundle ss view page p.tuples) p.created st'
  simp only [Document.client, run, run'] at sent sent'
  refine Run.Pairs.bind (.ok (congrArg (·, st) hpage) (congrArg (·, st') hpage) ?_)
  refine Run.Pairs.bind (.ok (congrArg (·, st) hms) (congrArg (·, st') hms) ?_)
  cases answer with
  | error f => exact .bind (.error sent sent' ⟨rfl, ns, ends⟩)
  | ok _ =>
    refine Run.Pairs.bind (.ok sent sent' ?_)
    have same := finalWidgets_alike (p := p) seen met assigned (on rfl) index
    obtain ⟨ws, hws⟩ := finalWidgets_total (s := s) (p := p) assigned index
    have hws' := same.trans hws
    exact Run.Pairs.bind (.ok (congrArg (·, _) hws) (congrArg (·, _) hws')
      (.ok rfl rfl ⟨rfl, ns, ends⟩))

/-- Two runs for one request that creates nothing, on documents that are seen alike from its page. -/
theorem compileRun_alike (config : CompilerConfig)
    (old : ∀ t, request.layout = some t → t.newPanes = [])
    (calm : d.rejectMutationAt = none) (calm' : e.rejectMutationAt = none)
    (seen : ∀ v, request.view = some v → d.SeenFrom v e) (id id' : Uuid) :
    (compileRun Document.client config id request).Pairs
      (compileRun Document.client config id' request) (.fresh d) (.fresh e)
      (fun o o' u u' => o'.unnamed = o.unnamed ∧
        ∃ ns, EndAlike d e request.view ns u.engine u'.engine)
      fun err err' u u' => err' = err ∧
        ∃ ns, EndAlike d e request.view ns u.engine u'.engine := by
  have alike : request.view.isSome → d.Resembles e := by
    intro given
    obtain ⟨v, hv⟩ := Option.isSome_iff_exists.1 given
    exact (seen v hv).toResembles
  rw [compileRun_eq, compileRun_eq]
  refine Run.Pairs.bind (((populate_alike old alike).and (populate_yields d config request)
    (Run.yields_trivial _ _)).mono ?_ ?_)
  · rintro ⟨_, s, _⟩ ⟨plan, s', p⟩ u u' ⟨⟨rfl, rfl, given, nothing, met, level⟩, ⟨t, r, stocked⟩, -⟩
    obtain ⟨v, hv⟩ := Option.isSome_iff_exists.1 given
    exact conclude_alike calm calm' (seen v hv) stocked hv nothing met level id id'
  · rintro err _ u u' ⟨⟨rfl, level⟩, -⟩
    exact ⟨rfl, [], Document.rewritten_of_read level.engines.1 calm _,
      Document.rewritten_of_read level.engines.2 calm' _⟩

end Compile

open Compile

variable [Scalar α] {d e : Document α}

theorem compile_alike {request : LayoutRequest α}
    (old : ∀ t, request.layout = some t → t.newPanes = []) (calm : d.rejectMutationAt = none)
    (calm' : e.rejectMutationAt = none) (seen : ∀ v, request.view = some v → d.SeenFrom v e)
    (config : CompilerConfig) (id id' : Uuid) :
    ((compile Document.client config id' request e).1.map CompileOutcome.unnamed =
      (compile Document.client config id request d).1.map CompileOutcome.unnamed) ∧
    ∃ ns, d.Rewritten request.view ns (compile Document.client config id request d).2 ∧
      e.Rewritten request.view ns (compile Document.client config id' request e).2 := by
  unfold compile
  rcases compileRun_alike config old calm calm' seen id id' with
    ⟨run, run', same, ns, ends⟩ | ⟨run, run', same, ns, ends⟩
  · rw [run, run']
    exact ⟨congrArg Except.ok same, ns, ends.left, ends.right⟩
  · rw [run, run']
    exact ⟨congrArg Except.error same, ns, ends.left, ends.right⟩

open Document in
/-- Requests for different pages that create nothing may be compiled in either order: each has the
same result, up to the ids that are chosen for the outcomes, and the same widgets and pages come of
both. -/
theorem compile_comm {r₁ r₂ : LayoutRequest α} (calm : d.rejectMutationAt = none)
    (old₁ : ∀ t, r₁.layout = some t → t.newPanes = [])
    (old₂ : ∀ t, r₂.layout = some t → t.newPanes = []) (apart : r₁.view ≠ r₂.view)
    (config : CompilerConfig) (i₁ i₂ j₁ j₂ : Uuid) :
    let first := compile client config i₁ r₁ d
    let second := compile client config i₂ r₂ first.2
    let second' := compile client config j₂ r₂ d
    let first' := compile client config j₁ r₁ second'.2
    first'.1.map CompileOutcome.unnamed = first.1.map CompileOutcome.unnamed ∧
    second'.1.map CompileOutcome.unnamed = second.1.map CompileOutcome.unnamed ∧
    second.2.widgets = first'.2.widgets ∧ second.2.pages = first'.2.pages ∧
    second.2.widgetViews = first'.2.widgetViews ∧ second.2.tables = first'.2.tables := by
  intro first second second' first'
  obtain ⟨-, ms, alone₁, -⟩ := compile_alike old₁ calm calm (fun v _ => .refl v d) config i₁ i₁
  obtain ⟨-, ns, alone₂, -⟩ := compile_alike old₂ calm calm (fun v _ => .refl v d) config j₂ j₂
  obtain ⟨same₂, ns', left₂, right₂⟩ := compile_alike old₂ calm alone₁.calm
    (fun v hv => alone₁.seenFrom fun same => apart (same.trans hv.symm)) config j₂ i₂
  obtain ⟨same₁, ms', left₁, right₁⟩ := compile_alike old₁ calm alone₂.calm
    (fun v hv => alone₂.seenFrom fun same => apart (hv.trans same.symm)) config i₁ j₁
  exact ⟨same₁, same₂.symm, rewritten_comm apart left₁ right₂ left₂ right₁⟩

/-- Orders on one page and customers on another, each linked to the other. -/
theorem compile_comm_two_pages :
    let shop : Document Rat := Document.shop.addWidget ⟨2⟩ (.create ⟨8⟩ ⟨2⟩ .grid)
    let orders : Layout Rat :=
      .pane (.existing ⟨7⟩ ⟨none, some "Orders", none, some (.childOf (.id ⟨8⟩))⟩)
    let customers : Layout Rat :=
      .pane (.existing ⟨8⟩ ⟨none, none, none, some (.filteredBy (.id ⟨7⟩) "Total")⟩)
    let r₁ : LayoutRequest Rat := ⟨some ⟨1⟩, shop.tableMap, some orders⟩
    let r₂ : LayoutRequest Rat := ⟨some ⟨2⟩, shop.tableMap, some customers⟩
    let first := compile Document.client .standard ⟨0⟩ r₁ shop
    let second := compile Document.client .standard ⟨1⟩ r₂ first.2
    let second' := compile Document.client .standard ⟨2⟩ r₂ shop
    let first' := compile Document.client .standard ⟨3⟩ r₁ second'.2
    shop.rejectMutationAt = none ∧ (∀ t, r₁.layout = some t → t.newPanes = []) ∧
      (∀ t, r₂.layout = some t → t.newPanes = []) ∧ r₁.view ≠ r₂.view ∧
      (first.1.isOk ∧ second.1.isOk) ∧
      first'.1.map CompileOutcome.unnamed = first.1.map CompileOutcome.unnamed ∧
      second'.1.map CompileOutcome.unnamed = second.1.map CompileOutcome.unnamed ∧
      second.2.widgets = first'.2.widgets ∧ second.2.pages = first'.2.pages ∧
      second.2.widgetViews = first'.2.widgetViews ∧ second.2.tables = first'.2.tables := by
  intro shop orders customers r₁ r₂ first second second' first'
  have old₁ : ∀ t, r₁.layout = some t → t.newPanes = [] := by
    rintro t ⟨⟩
    rfl
  have old₂ : ∀ t, r₂.layout = some t → t.newPanes = [] := by
    rintro t ⟨⟩
    rfl
  have apart : r₁.view ≠ r₂.view := by decide
  exact ⟨rfl, old₁, old₂, apart, by decide +kernel,
    compile_comm rfl old₁ old₂ apart .standard ⟨0⟩ ⟨1⟩ ⟨3⟩ ⟨2⟩⟩

end PaneLayout
