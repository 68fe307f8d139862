import PaneLayout.Proofs.EarlyErrors
import PaneLayout.Proofs.Progress
import PaneLayout.Proofs.Protocol

set_option autoImplicit false

/-!
# Errors account for what was created

An error that may come after a creation carries the widgets that the run has created. Most of these
errors start with none: what is read before the first creation has none to carry, and what fails
later is given the widgets there are. On any client, what an error carries in the end are the
creations of the trace that were answered with a widget.
-/

namespace PaneLayout

variable {α σ β : Type}

/-! ## Creations of a trace -/

/-- What a creation has made: the section is the client's, the rest as it was requested. -/
def CreateCall.made? (call : CreateCall) : Option WidgetInfo :=
  match call.answer with
  | .ok w => some (.create w.id call.table call.type)
  | .error _ => none

/-- The widgets made in a trace, in call order. -/
def madeIn (es : List (Event α)) : List WidgetInfo := (creations es).filterMap CreateCall.made?

theorem madeIn_concat (es : List (Event α)) (e : Event α) :
    madeIn (es ++ [e]) = madeIn es ++ (e.creation?.bind CreateCall.made?).toList := by
  rw [madeIn, creations_concat, List.filterMap_append, ← madeIn]
  cases e.creation? with
  | none => rfl
  | some call =>
    cases made : call.made? <;>
      simp [made]

theorem madeIn_reads (es : List (Event α)) {rs : List (Event α)}
    (reads : ∀ e ∈ rs, e.isWrite = false) : madeIn (es ++ rs) = madeIn es := by
  induction rs generalizing es with
  | nil => rw [List.append_nil]
  | cons e rs ih =>
    obtain ⟨first, rest⟩ := List.forall_mem_cons.1 reads
    rw [List.append_cons, ih _ rest, madeIn, creations_read first, ← madeIn]

theorem LinkRun.Quiet.madeIn_eq {x : LinkRun (Traced α σ) β} (quiet : x.Quiet)
    (st : Schooled (Traced α σ)) : madeIn (x.start st).2.trace = madeIn st.trace := by
  obtain ⟨rs, trace, reads⟩ := quiet st
  rw [trace, madeIn_reads _ reads]

/-! ## Errors -/

namespace CompileError

/-- An error that may come after a creation carries what has been made. -/
def Accounts (err : CompileError) (es : List (Event α)) : Prop :=
  err.isEarly = false → err.created = madeIn es

variable {err : CompileError} {es : List (Event α)}

theorem accounts_of_isEarly (early : err.isEarly = true) : err.Accounts es := by
  intro late
  rw [early] at late
  cases late

theorem accounts_of_blank (blank : err.created = []) (none : madeIn es = []) : err.Accounts es :=
  fun _ => blank.trans none.symm

theorem accounts_withCreated (err : CompileError) {ws : List WidgetInfo} (all : ws = madeIn es) :
    (err.withCreated ws).Accounts es := by
  cases err with
  | malformedLayout | unknownTable | unknownColumn => exact accounts_of_isEarly rfl
  | danglingLinkTarget | collaboratorFailure => exact fun _ => all

end CompileError

/-- The run fails with errors that carry no widgets. -/
def LinkRun.Blank (x : LinkRun σ β) : Prop :=
  ∀ st, x.Yields st (fun _ _ => True) fun err _ => err.created = []

theorem LinkRun.blank_sequential : Sequential fun {β} (x _ : LinkRun σ β) => x.Blank where
  done _ _ := trivial
  fail _ blank _ := blank
  bind {β γ x _ f _} hx hf := by
    intro st
    rw [Run.yields_bind]
    exact (hx st).mono (fun b t _ => hf b t) fun _ _ => id

theorem LinkRun.blank_ask (step : FailedStep) (call : σ → Reply σ β) : (ask step call).Blank := by
  intro st
  rw [yields_ask]
  rcases call st.engine with ⟨_ | _, _⟩
  · rfl
  · trivial

namespace Compile

theorem blank_reading (client : Client α σ) :
    Reading (fun {β} (x _ : LinkRun σ β) => x.Blank) client client where
  toSequential := LinkRun.blank_sequential
  columns t _ := LinkCheck.yields_columns client t (fun _ _ => trivial) (fun _ _ _ => rfl)
    fun _ _ _ _ => trivial
  lineage t _ := LinkCheck.yields_summarySource client t (fun _ _ => trivial) (fun _ _ _ => rfl)
    fun _ _ _ _ => trivial
  fetch id := LinkRun.blank_ask (.fetchWidget id) (client.fetchWidget id)

/-! ## Passes -/

section
variable {client : Client α σ} {rules : LinkRules} {plan : Plan α} {s : Surroundings}
  {st : Schooled (Traced α σ)}

/-- What is read before the first creation has nothing to account for. -/
theorem reading_accounts {x : LinkRun (Traced α σ) β} (quiet : x.Quiet) (blank : x.Blank)
    (none : madeIn st.trace = []) :
    x.Yields st (fun _ st' => madeIn st'.trace = []) fun err st' => err.Accounts st'.trace := by
  have still := quiet.madeIn_eq st
  rw [none] at still
  rcases run : x.start st with ⟨err | b, st'⟩ <;> rw [run] at still
  · exact .of_error run (CompileError.accounts_of_blank ((blank st).error run) still)
  · exact .of_ok run still

theorem create_accounts (c : Creation) {p : Progress} (all : p.created = madeIn st.trace) :
    (create client.traced c p).Yields st (fun p' st' => p'.created = madeIn st'.trace)
      fun err st' => err.Accounts st'.trace := by
  unfold create
  rw [Run.yields_bind, Run.yields_adapt, LinkRun.yields_ask]
  simp only [Client.traced, Client.note]
  rcases client.createWidget c.table c.type p.view st.engine.1 with ⟨f | w, e⟩
  · refine CompileError.accounts_withCreated _ (all.trans ?_)
    change _ = madeIn (st.trace ++ _)
    rw [madeIn_concat]
    exact (List.append_nil _).symm
  · change p.created ++ _ = madeIn (st.trace ++ _)
    rw [madeIn_concat, all]
    rfl

theorem resolveDrained_accounts (ls : List PendingLink) {p : Progress}
    (all : p.created = madeIn st.trace) :
    (resolveDrained client.traced rules plan s ls p).Yields st
      (fun p' st' => p'.created = madeIn st'.trace) fun err st' => err.Accounts st'.trace := by
  induction ls generalizing p st with
  | nil => exact all
  | cons l ls ih =>
    unfold resolveDrained
    rw [Run.yields_bind, Run.yields_adapt]
    have still := ((quiet_reading client).resolveLink rules plan p.registry s l).madeIn_eq st
    rcases run : (resolveLink client.traced rules plan p.registry s l).start st with
      ⟨err | t, st'⟩ <;> rw [run] at still
    · exact .of_error run (err.accounts_withCreated (all.trans still.symm))
    · exact .of_ok run (ih (all.trans still.symm))

theorem createAll_accounts (cs : List Creation) {p : Progress}
    (all : p.created = madeIn st.trace) :
    (createAll client.traced rules plan s cs p).Yields st
      (fun p' st' => p'.created = madeIn st'.trace) fun err st' => err.Accounts st'.trace := by
  induction cs generalizing p st with
  | nil => exact all
  | cons c cs ih =>
    unfold createAll
    rw [Run.yields_bind]
    refine (create_accounts c all).mono (fun p₁ st₁ all₁ => ?_) fun _ _ => id
    rw [Run.yields_bind]
    exact (resolveDrained_accounts p₁.registry.drain.1
      (p := { p₁ with registry := p₁.registry.drain.2 }) all₁).mono (fun _ _ => ih) fun _ _ => id

end

variable [Scalar α]

theorem make_error {t? : Option (Layout α)} {tables : TableMap} {err : CompileError}
    (h : Plan.make t? tables = .error err) : err.isEarly = true := by
  unfold Plan.make at h
  cases t? with
  | none =>
    cases h
    rfl
  | some t =>
    dsimp only at h
    split at h
    · next valid =>
      have branching := Plan.branching_of_validate (List.isEmpty_iff.1 valid)
      rcases Plan.ofLayout_cases tables branching with ⟨plan, ok, -⟩ | ⟨p, -, name, -, -, unknown⟩
      · rw [ok] at h
        cases h
      · rw [unknown] at h
        cases h
        rfl
    · cases h
      rfl

variable (client : Client α σ)

theorem populate_accounts (config : CompilerConfig) (request : LayoutRequest α)
    {st : Schooled (Traced α σ)} (none : madeIn st.trace = []) :
    (populate client.traced config request).Yields st
      (fun x st' => x.2.2.created = madeIn st'.trace) fun err st' => err.Accounts st'.trace := by
  have quiet := quiet_reading client
  have blank := blank_reading client.traced
  unfold populate
  rw [Run.yields_bind, yields_liftExcept]
  cases hm : Plan.make request.layout request.tables with
  | error err => exact CompileError.accounts_of_isEarly (make_error hm)
  | ok plan =>
    dsimp only
    split
    · rw [Run.yields_bind]
      exact CompileError.accounts_of_isEarly rfl
    rw [Run.yields_bind]
    refine (reading_accounts (quiet.survey _ plan) (blank.survey _ plan) none).mono ?_
      fun _ _ => id
    rintro ⟨r, s⟩ st₁ none₁
    dsimp only
    rw [Run.yields_bind]
    let start : Progress := ⟨r, request.view, [], ∅⟩
    have resolved := reading_accounts (quiet.resolveOrDefer (.ofConfig request.tables config) plan
      s plan.links start) (blank.resolveOrDefer _ plan s plan.links start) none₁
    refine (resolved.and (resolveOrDefer_passes (r := r) plan.links rfl st₁)).mono ?_
      fun _ _ => And.left
    rintro p st₂ ⟨none₂, -, same, -⟩
    rw [Run.yields_bind]
    have all : p.created = madeIn st₂.trace := by rw [none₂, same]
    exact (createAll_accounts plan.creations all).mono (fun _ _ => id) fun _ _ => id

theorem conclude_accounts {config : CompilerConfig} {request : LayoutRequest α} (id : Uuid)
    {t : Layout α} {plan : Plan α} {r : Registry} {s : Surroundings}
    {xs : List (PlaceholderId × SectionId)} {p : Progress} {st : Schooled (Traced α σ)}
    (h : Populated client.traced config request t plan r s xs p st)
    (all : p.created = madeIn st.trace) :
    (conclude client.traced id plan s p).Yields st (fun _ _ => True)
      fun err st' => err.Accounts st'.trace := by
  refine h.conclude_yields id (fun _ _ => all) (fun _ => CompileError.accounts_of_isEarly rfl) ?_
    fun _ _ _ _ _ _ _ => trivial
  intro view ss ms f sends answer _
  rw [client.trace_applyMutations, madeIn_concat, ← all]
  exact (List.append_nil _).symm

end Compile

open Compile

variable [Scalar α]

theorem compileRun_accounts (client : Client α σ) (config : CompilerConfig) (id : Uuid)
    (request : LayoutRequest α) (s : σ) :
    (compileRun client.traced config id request).Yields (.fresh (s, [])) (fun _ _ => True)
      fun err st => err.Accounts st.trace := by
  rw [compileRun_eq, Run.yields_bind]
  have blank : madeIn (Schooled.fresh ((s, []) : Traced α σ)).trace = [] := rfl
  have all := populate_accounts client config request blank
  refine (all.and (populate_stands client.traced config request _)).mono ?_ fun _ _ => And.left
  rintro ⟨plan, s, p⟩ st ⟨all, t, r, xs, populated⟩
  exact conclude_accounts client id populated all

/-- On every client, wherever it fails: an error that may come after a creation carries exactly the
widgets that were created, in call order. -/
theorem created_of_error (client : Client α σ) (config : CompilerConfig) (id : Uuid)
    (request : LayoutRequest α) (s : σ) : ∃ es, compile client.traced config id request (s, []) =
      ((compile client config id request s).1, (compile client config id request s).2, es) ∧
    ∀ err, (compile client config id request s).1 = .error err → err.isEarly = false →
      err.created = (creations es).filterMap CreateCall.made? := by
  obtain ⟨es, same⟩ := compile_traced client config id request s
  refine ⟨es, same, fun err failed => ?_⟩
  have accounts := compileRun_accounts client config id request s
  rcases run : (compileRun client.traced config id request).start (.fresh (s, [])) with ⟨res, st⟩
  have ends : compile client.traced config id request (s, []) = (res, st.engine) := by
    rw [compile, run]
  obtain ⟨result, engine⟩ := Prod.mk.inj (same.symm.trans ends)
  have trace : st.trace = es := by rw [Schooled.trace, ← engine]
  rw [← result, failed] at run
  exact trace ▸ accounts.error run

/-- The shop cannot create a second widget, so the error carries the first one. -/
theorem created_of_error_second : ∃ es err d',
    compile Document.client.traced .standard ⟨0⟩
      ⟨some ⟨1⟩, Document.shop.tableMap, some Document.buyersLayout⟩
      ({ Document.shop with failCreateAt := some 1 }, []) = (.error err, d', es) ∧
    err.isEarly = false ∧ err.created.length = 1 ∧
    err.created = (creations es).filterMap CreateCall.made? := by
  obtain ⟨err, d', run, found⟩ := exists_error_of_test
    (fun err _ => !err.isEarly && err.created.length == 1)
    (x := compile Document.client .standard ⟨0⟩
      ⟨some ⟨1⟩, Document.shop.tableMap, some Document.buyersLayout⟩
      { Document.shop with failCreateAt := some 1 }) (by decide +kernel)
  rw [Bool.and_eq_true, Bool.not_eq_true', beq_iff_eq] at found
  obtain ⟨late, one⟩ := found
  obtain ⟨es, traced, created⟩ := created_of_error Document.client .standard ⟨0⟩
    ⟨some ⟨1⟩, Document.shop.tableMap, some Document.buyersLayout⟩
    { Document.shop with failCreateAt := some 1 }
  rw [run] at traced created
  exact ⟨es, err, d', traced, late, one, created err rfl late⟩

end PaneLayout
