import PaneLayout.Proofs.Mirror
import PaneLayout.Proofs.Reapplication

set_option autoImplicit false

/-!
# Trying again

A document that rejects a bundle half way keeps what was created and the part of the bundle before
the rejected mutation. Compiled once more with the created sections assigned, the layout leads to
what the first run would have led to.
-/

namespace PaneLayout

variable {α : Type}

/-! ## An injected rejection -/

/-- The document with a rejection injected at the mutation `k` of its next bundle. -/
def Document.rejecting (k : Nat) (d : Document α) : Document α := { d with rejectMutationAt := some k }

theorem Document.mirrors_rejecting (k : Nat) :
    Client.Mirrors (rejecting k) (client : Client α (Document α)) client where
  createWidget t type view d := by
    simp only [client, createWidget, rejecting]
    split
    · rfl
    split
    · rfl
    cases view with
    | none =>
      dsimp only
      split <;> rfl
    | some v =>
      dsimp only
      split
      · rfl
      · split <;> rfl
  fetchWidget _ _ := rfl
  listColumns _ _ := rfl
  summarySource _ _ := rfl

namespace Compile

variable [Scalar α] {d d' : Document α} {config : CompilerConfig} {request : LayoutRequest α}
  {t : Layout α} {plan : Plan α} {r : Registry} {s : Surroundings} {p : Progress}
  {e : Document α} {o : CompileOutcome α}

/-- Past its last creation a run that can succeed is only stopped by the document's answer. -/
theorem Finished.conclude_stops (h : Finished d config request t plan r s p e o d') (id : Uuid)
    (u : Schooled (Document α)) : (conclude Document.client id plan s p).Yields u (fun _ _ => True)
      fun err u' => err.created = p.created ∧
        ∃ f, Document.applyMutations o.mutations u.engine = (.error f, u'.engine) := by
  have going : ¬ (!p.registry.pending.isEmpty) = true := by
    rw [h.drained]
    exact Bool.false_ne_true
  have laidOut := h.laidOut
  have mutations := h.mutations
  have widgets := h.widgets
  rw [settledPlan] at laidOut mutations widgets
  unfold conclude
  rw [if_neg going, h.opened]
  dsimp only
  rw [Run.yields_bind, yields_liftExcept, laidOut]
  dsimp only
  rw [Run.yields_bind, yields_liftExcept, mutations]
  dsimp only
  rw [Run.yields_bind, applyBundle, Run.yields_ofReply]
  dsimp only [Document.client]
  rcases Document.applyMutations o.mutations u.engine with ⟨f | ⟨⟩, d₁⟩
  · exact ⟨rfl, f, rfl⟩
  · dsimp only
    rw [Run.yields_bind, yields_liftExcept, widgets]
    trivial

end Compile

/-- The page that a failed run was on: the given one, or that of the widgets it created. -/
def LayoutRequest.usedPage (request : LayoutRequest α) (err : CompileError) (d : Document α) :
    Option ViewRef :=
  request.view <|> err.created.head?.bind fun w => d.widgetViews.get? w.id

namespace Compile

variable [Scalar α] {d d' d₁ : Document α} {config : CompilerConfig} {request : LayoutRequest α}
  {t : Layout α} {plan : Plan α} {r : Registry} {s : Surroundings} {p : Progress}
  {e : Document α} {o : CompileOutcome α}

theorem Finished.usedPage_eq (h : Finished d config request t plan r s p e o d')
    {err : CompileError} (created : err.created = p.created)
    (views : d₁.widgetViews = e.widgetViews) : request.usedPage err d₁ = some o.view := by
  rw [h.view_eq, LayoutRequest.usedPage, created, h.reached.created, views]
  cases hv : request.view with
  | some v => rfl
  | none =>
    cases made : d.made plan.creations with
    | nil =>
      have length := d.made_length plan.creations
      rw [made] at length
      exact absurd (List.length_eq_zero_iff.1 length.symm) (h.housed hv)
    | cons w ws =>
      have given : w.id ∈ d.nextSections plan.creations.length := by
        rw [← d.made_ids, made]
        exact List.mem_cons_self
      have shown := h.reached.grown.view_of_mem given
      rwa [hv] at shown

variable {id id' : Uuid} {k : Nat} {err : CompileError}

/-- Two runs that differ in an injected rejection come to the same bundle. -/
theorem exists_finished_of_rejected
    (rejected : compile Document.client config id request (d.rejecting k) = (.error err, d₁))
    (accepted : compile Document.client config id' request d = (.ok o, d')) :
    ∃ t plan r s p e ns, Finished d config request t plan r s p e o d' ∧ err.created = p.created ∧
      ns <+: o.mutations ∧ e.bundling.Applied ns d₁ := by
  rw [compile, compileRun_eq, Run.start_bind] at rejected accepted
  have before := populate_yields d config request
  have mirrored := (mirrors_populating (Document.mirrors_rejecting k)).populate config request
    (.fresh d)
  change (populate Document.client config request).start (.fresh (d.rejecting k)) = _ at mirrored
  rcases populated : (populate Document.client config request).start (.fresh d) with
    ⟨stop | ⟨plan, s, p⟩, st⟩
  · rw [populated] at accepted
    cases (Prod.mk.inj accepted).1
  · rw [populated] at mirrored accepted
    rw [mirrored] at rejected
    dsimp only at rejected accepted
    obtain ⟨t, r, stocked⟩ := before.ok populated
    have whole := stocked.conclude_yields id'
    rcases sent : (conclude Document.client id' plan s p).start st with ⟨stop | o', st'⟩
    · rw [sent] at accepted
      cases (Prod.mk.inj accepted).1
    · rw [sent] at accepted
      obtain ⟨same, rfl⟩ := Prod.mk.inj accepted
      obtain rfl := Except.ok.inj same
      have h := whole.ok sent
      have stops := h.conclude_stops id (st.map (Document.rejecting k))
      rcases resent : (conclude Document.client id plan s p).start (st.map (Document.rejecting k)) with
        ⟨stop | o', u⟩
      · rw [resent] at rejected
        obtain ⟨same, rfl⟩ := Prod.mk.inj rejected
        obtain rfl := Except.error.inj same
        obtain ⟨created, f, run⟩ := stops.error resent
        rcases (st.engine.rejecting k).applyMutations_cases o'.mutations with
          ⟨e', run', -⟩ | ⟨f', ns, e', run', le, partly, -⟩
        · cases (Prod.mk.inj (run.symm.trans run')).1
        · obtain ⟨-, rfl⟩ := Prod.mk.inj (run.symm.trans run')
          exact ⟨t, plan, r, s, p, st.engine, ns, h, created, le, partly⟩
      · rw [resent] at rejected
        cases (Prod.mk.inj rejected).1

end Compile

/-- When only an injected rejection makes a run fail, the layout with the created sections assigned
is compiled afterwards without another creation, and the widgets and pages are those of a run
without the rejection. -/
theorem compile_retry [Scalar α] {d d₁ d₂ : Document α} {config : CompilerConfig} {id id' : Uuid}
    (id'' : Uuid) {request : LayoutRequest α} {t : Layout α} {k : Nat} {err : CompileError}
    {o : CompileOutcome α} (reach : d.Reachable)
    (room : d.lastSection.toNat + t.newPanes.length < UInt32.size) (layout : request.layout = some t)
    (grounded : t.Grounded d)
    (rejected : compile Document.client config id request (d.rejecting k) = (.error err, d₁))
    (accepted : compile Document.client config id' request d = (.ok o, d₂)) :
    ∃ view t' o' d₃, request.usedPage err d₁ = some view ∧
      t.withSections (err.created.map (·.id)) = .ok t' ∧
      compile Document.client config id'' ⟨some view, request.tables, some t'⟩ d₁ = (.ok o', d₃) ∧
      d₃.createCalls = d₁.createCalls ∧ d₃.widgets = d₂.widgets ∧
      d₃.widgetViews = d₂.widgetViews ∧ d₃.pages = d₂.pages := by
  obtain ⟨t₀, plan, r, s, p, e, ns, h, created, le, partly⟩ :=
    Compile.exists_finished_of_rejected rejected accepted
  obtain rfl := Option.some.inj (layout.symm.trans h.layout)
  have new := fun i (hi : i ∈ d.nextSections t.newPanes.length) => reach.nextSections_new room hi
  have few := Compile.few_of_nodup (Document.nextSections_nodup room)
  have behind := h.behind_of_applied few le.subset partly
  obtain ⟨t', o', d₃, assigned, run, kept⟩ :=
    h.recompile room new grounded behind partly.rejecting id''
  refine ⟨o.view, t', o', d₃, h.usedPage_eq created partly.views, ?_, run, kept⟩
  rw [created, ← h.created]
  exact assigned

theorem compile_retry_buyers : ∃ err d₁ o d₂,
    (Document.shop.Reachable ∧
      Document.shop.lastSection.toNat + Document.buyersLayout.newPanes.length < UInt32.size ∧
      Document.buyersLayout.Grounded Document.shop) ∧
    compile Document.client .standard ⟨0⟩
      ⟨some ⟨1⟩, Document.shop.tableMap, some Document.buyersLayout⟩ (Document.shop.rejecting 2) =
        (.error err, d₁) ∧
    compile Document.client .standard ⟨0⟩
      ⟨some ⟨1⟩, Document.shop.tableMap, some Document.buyersLayout⟩ Document.shop = (.ok o, d₂) ∧
    ∃ view t' o' d₃,
      (⟨some ⟨1⟩, Document.shop.tableMap, some Document.buyersLayout⟩ : LayoutRequest Rat).usedPage
        err d₁ = some view ∧
      Document.buyersLayout.withSections (err.created.map (·.id)) = .ok t' ∧
      compile Document.client .standard ⟨1⟩ ⟨some view, Document.shop.tableMap, some t'⟩ d₁ =
        (.ok o', d₃) ∧
      d₃.createCalls = d₁.createCalls ∧ d₃.widgets = d₂.widgets ∧
      d₃.widgetViews = d₂.widgetViews ∧ d₃.pages = d₂.pages := by
  have room : Document.shop.lastSection.toNat + Document.buyersLayout.newPanes.length <
      UInt32.size := by
    decide +kernel
  obtain ⟨err, d₁, rejected, -⟩ := exists_error_of_test (fun _ _ => true)
    (x := compile Document.client .standard ⟨0⟩
      ⟨some ⟨1⟩, Document.shop.tableMap, some Document.buyersLayout⟩ (Document.shop.rejecting 2))
    (by decide +kernel)
  obtain ⟨o, d₂, accepted, -⟩ := exists_ok_of_test (fun _ _ => true)
    (x := compile Document.client .standard ⟨0⟩
      ⟨some ⟨1⟩, Document.shop.tableMap, some Document.buyersLayout⟩ Document.shop)
    (by decide +kernel)
  refine ⟨err, d₁, o, d₂, ⟨Document.shop_reachable, room, Document.buyers_grounded⟩, rejected,
    accepted, ?_⟩
  exact compile_retry ⟨1⟩ Document.shop_reachable room rfl Document.buyers_grounded rejected accepted

end PaneLayout
