import PaneLayout.Proofs.Bundle
import PaneLayout.Proofs.Closed
import PaneLayout.Proofs.Sections

set_option autoImplicit false

/-!
# How a compilation ends

Everything that can be said of a compilation on a document, whichever way it ends. It is read off
the steps once here: `Finished` has what every step gave to a successful one, `Failed` has the step
at which the others stop and the document they leave.
-/

namespace PaneLayout.Compile

variable {α : Type} [Scalar α]

def settledPlan (plan : Plan α) (p : Progress) : Plan α := { plan with registry := p.registry }

/-- A compilation of a layout `t` past its last creation, on the document `e`. -/
structure Stocked (d : Document α) (config : CompilerConfig) (request : LayoutRequest α)
    (t : Layout α) (plan : Plan α) (r : Registry) (s : Surroundings) (p : Progress)
    (e : Document α) : Prop where
  layout : request.layout = some t
  valid : Layout.validate (some t) = []
  draws : plan.Draws request.tables t
  housed : request.view = none → plan.creations ≠ []
  surveyed : Surveyed d request.tables t plan r s
  fits : ∀ l ∈ plan.links, ∀ ends,
    d.ends? request.tables t.panes l.ownerIndex l.target = some ends →
    l.link.Fits d.tables (.ofConfig request.tables config) ends
  reached : Reached d request.view (.ofConfig request.tables config) plan r s plan.creations p e

/-- A compilation that has come to its bundle `ms`. -/
structure Prepared (d : Document α) (config : CompilerConfig) (request : LayoutRequest α)
    (t : Layout α) (plan : Plan α) (r : Registry) (s : Surroundings) (p : Progress)
    (e : Document α) (view : ViewRef) (page : Native α SectionId) (ms : List (Mutation α)) :
    Prop extends Stocked d config request t plan r s p e where
  drained : p.registry.pending = []
  opened : p.view = some view
  laidOut : (settledPlan plan p).nativeLayout = .ok page
  mutations : (settledPlan plan p).mutations view page p.tuples = .ok ms

/-- A compilation that ends in `o` and leaves the document `d'`. -/
structure Finished (d : Document α) (config : CompilerConfig) (request : LayoutRequest α)
    (t : Layout α) (plan : Plan α) (r : Registry) (s : Surroundings) (p : Progress)
    (e : Document α) (o : CompileOutcome α) (d' : Document α) : Prop
    extends Prepared d config request t plan r s p e o.view o.layout o.mutations where
  applied : Document.applyMutations o.mutations e = (.ok (), d')
  widgets : finalWidgets (settledPlan plan p) s p plan.panes = .ok o.widgets
  created : o.created = p.created.map (·.id)
  fingerprint : o.fingerprint = fingerprint o.mutations

/-- Why nothing is created. -/
inductive Hindered (d : Document α) (config : CompilerConfig) (request : LayoutRequest α) : Prop
  | unplanned (err : CompileError) : Plan.make request.layout request.tables = .error err →
    Hindered d config request
  | homeless (plan : Plan α) : Plan.make request.layout request.tables = .ok plan →
    request.view = none → plan.creations = [] → Hindered d config request
  | obstructed (t : Layout α) (plan : Plan α) : request.layout = some t →
    plan.Draws request.tables t →
    Obstructed d request.tables (.ofConfig request.tables config) t plan →
    Hindered d config request
  | unresolved (t : Layout α) (plan : Plan α) (r : Registry) (s : Surroundings) :
    request.layout = some t → plan.Draws request.tables t →
    Surveyed d request.tables t plan r s →
    Unresolved d (.ofConfig request.tables config) plan r s [] → Hindered d config request

/-- Where a compilation of the layout `t` stops once it may have created something. -/
inductive Broken (d : Document α) (config : CompilerConfig) (request : LayoutRequest α)
    (t : Layout α) (plan : Plan α) (r : Registry) (s : Surroundings) :
    CompileError → Document α → Prop
  | stopped (err : CompileError) (e : Document α) :
    Stopped d request.view (.ofConfig request.tables config) plan r s plan.creations err e →
    Broken d config request t plan r s err e
  | dangling (links : List DanglingLink) (p : Progress) (e : Document α) :
    Reached d request.view (.ofConfig request.tables config) plan r s plan.creations p e →
    p.registry.pending ≠ [] →
    Broken d config request t plan r s (.danglingLinkTarget links p.created) e
  | rejected (step : FailedStep) (message : String) (p : Progress) (e : Document α)
    (view : ViewRef) (page : Native α SectionId) (ms : List (Mutation α)) (f : Fault)
    (d' : Document α) : Prepared d config request t plan r s p e view page ms →
    Document.applyMutations ms e = (.error f, d') →
    Broken d config request t plan r s (.collaboratorFailure step message p.created) d'

/-- A compilation that ends in the error `err` and leaves the document `d'`. -/
inductive Failed (d : Document α) (config : CompilerConfig) (request : LayoutRequest α)
    (err : CompileError) (d' : Document α) : Prop
  | early : d.OnlyRead d' → Hindered d config request → Failed d config request err d'
  | late (t : Layout α) (plan : Plan α) (r : Registry) (s : Surroundings) :
    request.layout = some t → Layout.validate (some t) = [] → plan.Draws request.tables t →
    Surveyed d request.tables t plan r s →
    (∀ l ∈ plan.links, ∀ ends,
      d.ends? request.tables t.panes l.ownerIndex l.target = some ends →
      l.link.Fits d.tables (.ofConfig request.tables config) ends) →
    Broken d config request t plan r s err d' → Failed d config request err d'

/-! ## Sections after the last creation -/

theorem exists_map_some {β γ : Type} {f : β → Option γ} {xs : List β}
    (h : ∀ x ∈ xs, (f x).isSome) : ∃ ys : List γ, xs.map f = ys.map some := by
  induction xs with
  | nil => exact ⟨[], rfl⟩
  | cons x xs ih =>
    obtain ⟨hx, hxs⟩ := List.forall_mem_cons.1 h
    obtain ⟨y, hy⟩ := Option.isSome_iff_exists.1 hx
    obtain ⟨ys, hys⟩ := ih hxs
    exact ⟨y :: ys, by rw [List.map_cons, List.map_cons, hy, hys]⟩

omit [Scalar α] in
theorem lookup_reached {d : Document α} {view : Option ViewRef} {rules : LinkRules} {plan : Plan α}
    {r : Registry} {s : Surroundings} {cs : List Creation} {p : Progress} {e : Document α}
    (h : Reached d view rules plan r s cs p e) :
    p.registry.lookup = (registryAfter d r cs).lookup := by
  funext ref
  rw [h.registry]
  cases ref <;> rfl

theorem assigned_of_lookup {tables : TableMap} {t : Layout α} {plan : Plan α} {p : Progress}
    {ss : List SectionId} (draws : plan.Draws tables t)
    (h : (t.slots tables).map (fun slot => p.registry.lookup slot.ref) = ss.map some) :
    (settledPlan plan p).Assigned ss where
  panes := by
    change plan.panes.map _ = _
    rw [draws.panes, List.map_map]
    exact h
  leaves := by
    change plan.layout.leaves.map _ = _
    rw [draws.leaves, List.map_map]
    exact h

theorem exists_assigned {d : Document α} {tables : TableMap} {t : Layout α} {plan : Plan α}
    {view : Option ViewRef} {rules : LinkRules} {r : Registry} {s : Surroundings} {p : Progress}
    {e : Document α} (draws : plan.Draws tables t)
    (h : Reached d view rules plan r s plan.creations p e) :
    ∃ ss, (settledPlan plan p).Assigned ss := by
  have some_each : ∀ slot ∈ t.slots tables, (p.registry.lookup slot.ref).isSome := by
    intro slot hs
    rw [lookup_reached h]
    exact draws.lookup_isSome hs
  obtain ⟨ss, hss⟩ := exists_map_some some_each
  exact ⟨ss, assigned_of_lookup draws hss⟩

theorem index_lt {tables : TableMap} {t : Layout α} {plan : Plan α} {p : Progress}
    {ss : List SectionId} (draws : plan.Draws tables t) (h : (settledPlan plan p).Assigned ss) :
    ∀ q ∈ plan.panes, q.index < ss.length := by
  intro q hq
  have length : plan.panes.length = ss.length := h.length
  exact length ▸ draws.index_lt hq

theorem texts_of_draws {tables : TableMap} {t : Layout α} {plan : Plan α}
    (draws : plan.Draws tables t) :
    plan.panes.map (·.texts) = t.panes.mapIdx fun i pane => (i, pane.title, pane.description) := by
  apply List.ext_getElem?
  intro i
  rw [draws.panes, List.map_map, List.getElem?_map, List.getElem?_mapIdx]
  cases hslot : (t.slots tables)[i]? with
  | some slot =>
    obtain ⟨index, pane⟩ := Layout.slots_getElem? hslot
    rw [pane, Option.map_some, Option.map_some, ← index]
    rfl
  | none =>
    have beyond := List.getElem?_eq_none_iff.1 hslot
    rw [← List.length_map (·.pane), t.slots_panes] at beyond
    rw [List.getElem?_eq_none beyond]
    rfl

theorem tuples_lt {d : Document α} {rules : LinkRules} {tables : TableMap} {t : Layout α}
    {plan : Plan α} {r : Registry} {s : Surroundings} {cs : List Creation} {p : Progress}
    {ss : List SectionId} (draws : plan.Draws tables t) (sound : Sound d rules plan r s cs p.tuples)
    (h : (settledPlan plan p).Assigned ss) :
    ∀ i, p.tuples.contains i = true → i < ss.length := by
  intro i hi
  obtain ⟨tuple, ht⟩ := Option.isSome_iff_exists.1 hi
  obtain ⟨l, hl, rfl, -⟩ := sound i tuple ht
  obtain ⟨pane, hp, -⟩ := draws.pane_of_link hl
  obtain ⟨bound, -⟩ := List.getElem?_eq_some_iff.1 hp
  have length : plan.panes.length = ss.length := h.length
  rwa [← length, draws.panes_length]

theorem exists_bundle {d : Document α} {tables : TableMap} {t : Layout α} {plan : Plan α}
    {v : Option ViewRef} {rules : LinkRules} {r : Registry} {s : Surroundings} {p : Progress}
    {e : Document α} (draws : plan.Draws tables t)
    (h : Reached d v rules plan r s plan.creations p e) (view : ViewRef) : ∃ page ms ws,
      (settledPlan plan p).nativeLayout = .ok page ∧
      (settledPlan plan p).mutations view page p.tuples = .ok ms ∧
      finalWidgets (settledPlan plan p) s p plan.panes = .ok ws := by
  obtain ⟨ss, assigned⟩ := exists_assigned draws h
  have index := index_lt draws assigned
  have tuples := tuples_lt draws h.sound assigned
  obtain ⟨page, hpage, -, -⟩ := Plan.nativeLayout_eq assigned
  obtain ⟨ws, hws⟩ := finalWidgets_total (s := s) (p := p) assigned index
  exact ⟨page, _, ws, hpage, Plan.mutations_eq assigned view page tuples index, hws⟩

/-! ## The endings -/

omit [Scalar α] in
theorem yields_liftExcept {σ β : Type} (x : Except CompileError β) {st : Schooled σ}
    {Q : β → Schooled σ → Prop} {E : CompileError → Schooled σ → Prop} :
    (compileRun.liftExcept x : LinkRun σ β).Yields st Q E ↔
      match x with
      | .ok b => Q b st
      | .error err => E err st := by
  cases x <;> exact Iff.rfl

theorem populate_yields (d : Document α) (config : CompilerConfig) (request : LayoutRequest α) :
    (populate Document.client config request).Yields (.fresh d)
      (fun x st => ∃ t r, Stocked d config request t x.1 r x.2.1 x.2.2 st.engine)
      (fun err st => Failed d config request err st.engine) := by
  unfold populate
  rw [Run.yields_bind, yields_liftExcept]
  have k := LinkCheck.knows_fresh d
  cases hm : Plan.make request.layout request.tables with
  | error err => exact .early (.refl d) (.unplanned err hm)
  | ok plan =>
    obtain ⟨t, layout, valid, draws⟩ := Plan.make_ok hm
    dsimp only
    by_cases homeless : (request.view.isNone && plan.creations.isEmpty) = true
    · rw [if_pos homeless, Run.yields_bind]
      simp only [Bool.and_eq_true, Option.isNone_iff_eq_none, List.isEmpty_iff] at homeless
      exact .early (.refl d) (.homeless plan hm homeless.1 homeless.2)
    rw [if_neg homeless, Run.yields_bind]
    refine (survey_yields (.ofConfig request.tables config) draws k).mono ?_ ?_
    · rintro ⟨r, s⟩ st₁ ⟨learned₁, surveyed, fits⟩
      dsimp only
      rw [Run.yields_bind]
      refine (resolveOrDefer_reaches (surveyed.pending_eq draws) learned₁.knows
        learned₁.read).mono ?_ ?_
      · rintro p₁ st₂ ⟨learned₂, reached₁⟩
        rw [Run.yields_bind]
        refine (createAll_yields [] plan.creations reached₁ learned₂.knows).mono ?_ ?_
        · rintro p st₃ reached
          refine ⟨t, r, ?_⟩
          constructor
          case layout => exact layout
          case valid => exact valid
          case draws => exact draws
          case surveyed => exact surveyed
          case fits => exact fits
          case reached => exact reached
          case housed =>
            intro none nothing
            exact homeless (by rw [none, nothing]; rfl)
        · rintro err st₃ stopped
          exact .late t plan r s layout valid draws surveyed fits (.stopped err _ stopped)
      · rintro err st₂ ⟨learned₂, unresolved⟩
        exact .early (learned₁.read.trans learned₂.read)
          (.unresolved t plan r s layout draws surveyed unresolved)
    · rintro err st₁ ⟨learned₁, obstructed⟩
      exact .early learned₁.read (.obstructed t plan layout draws obstructed)

section
variable {d : Document α} {config : CompilerConfig} {request : LayoutRequest α} {t : Layout α}
  {plan : Plan α} {r : Registry} {s : Surroundings} {p : Progress}

/-- Every creation opens a page, if none is given. -/
theorem Stocked.exists_view {e : Document α} (h : Stocked d config request t plan r s p e) :
    ∃ view, p.view = some view := by
  rw [h.reached.view]
  cases hc : plan.creations with
  | nil =>
    cases hv : request.view with
    | none => exact absurd hc (h.housed hv)
    | some view => exact ⟨view, rfl⟩
  | cons c cs => exact ⟨_, rfl⟩

theorem Stocked.conclude_yields {st : Schooled (Document α)}
    (h : Stocked d config request t plan r s p st.engine) (id : Uuid) :
    (conclude Document.client id plan s p).Yields st
      (fun o st' => Finished d config request t plan r s p st.engine o st'.engine)
      (fun err st' => Failed d config request err st'.engine) := by
  have broken {err : CompileError} {d' : Document α}
      (why : Broken d config request t plan r s err d') : Failed d config request err d' :=
    .late t plan r s h.layout h.valid h.draws h.surveyed h.fits why
  obtain ⟨view, opened⟩ := h.exists_view
  obtain ⟨page, ms, ws, hpage, hms, hws⟩ := exists_bundle h.draws h.reached view
  unfold conclude
  by_cases waiting : (!p.registry.pending.isEmpty) = true
  · rw [if_pos waiting, Run.yields_bind]
    refine broken (.dangling _ p _ h.reached ?_)
    simpa using waiting
  rw [if_neg waiting, opened]
  dsimp only
  have prepared : Prepared d config request t plan r s p st.engine view page ms :=
    { h with drained := by simpa using waiting, opened, laidOut := hpage, mutations := hms }
  rw [settledPlan] at hpage hms hws
  rw [Run.yields_bind, yields_liftExcept, hpage]
  dsimp only
  rw [Run.yields_bind, yields_liftExcept, hms]
  dsimp only
  rw [Run.yields_bind, applyBundle, Run.yields_ofReply]
  dsimp only [Document.client]
  rcases ha : Document.applyMutations ms st.engine with ⟨f | ⟨⟩, d'⟩
  · exact broken (.rejected _ _ p _ view page ms f d' prepared ha)
  · dsimp only
    rw [Run.yields_bind, yields_liftExcept, hws]
    exact { prepared with applied := ha, widgets := hws, created := rfl, fingerprint := rfl }

end

theorem compileRun_yields (d : Document α) (config : CompilerConfig) (id : Uuid)
    (request : LayoutRequest α) :
    (compileRun Document.client config id request).Yields (.fresh d)
      (fun o st => ∃ t plan r s p e, Finished d config request t plan r s p e o st.engine)
      (fun err st => Failed d config request err st.engine) := by
  rw [compileRun_eq, Run.yields_bind]
  refine (populate_yields d config request).mono ?_ fun _ _ h => h
  rintro ⟨plan, s, p⟩ st ⟨t, r, stocked⟩
  refine (stocked.conclude_yields id).mono ?_ fun _ _ h => h
  rintro o st' finished
  exact ⟨t, plan, r, s, p, st.engine, finished⟩

variable {d d' : Document α} {config : CompilerConfig} {id : Uuid} {request : LayoutRequest α}

theorem compile_error {err : CompileError}
    (run : compile Document.client config id request d = (.error err, d')) :
    Failed d config request err d' := by
  have both := compileRun_yields d config id request
  unfold compile at run
  rcases hr : (compileRun Document.client config id request).start (.fresh d) with ⟨e | o, st⟩
  · rw [hr] at run
    obtain ⟨same, rfl⟩ := Prod.mk.inj run
    rw [← Except.error.inj same]
    exact both.error hr
  · rw [hr] at run
    cases (Prod.mk.inj run).1

theorem compile_ok {o : CompileOutcome α}
    (run : compile Document.client config id request d = (.ok o, d')) :
    ∃ t plan r s p e, Finished d config request t plan r s p e o d' := by
  have both := compileRun_yields d config id request
  unfold compile at run
  rcases hr : (compileRun Document.client config id request).start (.fresh d) with ⟨e | o, st⟩
  · rw [hr] at run
    cases (Prod.mk.inj run).1
  · rw [hr] at run
    obtain ⟨same, rfl⟩ := Prod.mk.inj run
    rw [← Except.ok.inj same]
    exact both.ok hr

end PaneLayout.Compile
