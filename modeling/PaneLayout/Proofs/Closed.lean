import PaneLayout.Compile
import PaneLayout.Proofs.Loads
import PaneLayout.Proofs.Run

set_option autoImplicit false

/-!
# What sequencing keeps

A relation between the runs of two clients that is closed under the ways in which runs are put
together. A compilation has no other ways, so a closed relation that holds of the calls to the
clients holds of every pass. Reading takes sequencing alone: only what comes after a creation
changes errors. A property of the runs of one client is the case in which the second run plays no
part.
-/

namespace PaneLayout

variable {α σ τ : Type}

/-- Closed under sequencing, and true of the errors that come before the first creation. -/
structure LinkRun.Sequential (P : ∀ {β : Type}, LinkRun σ β → LinkRun τ β → Prop) : Prop where
  done : ∀ {β : Type} (b : β), P (pure b) (pure b)
  fail : ∀ {β : Type} (e : CompileError), e.created = [] → P (throw e : LinkRun σ β) (throw e)
  bind : ∀ {β γ : Type} {x : LinkRun σ β} {y : LinkRun τ β} {f : β → LinkRun σ γ}
    {g : β → LinkRun τ γ}, P x y → (∀ b, P (f b) (g b)) → P (x >>= f) (y >>= g)

/-- Closed under a change of the errors as well, so true of every error. -/
structure LinkRun.Closed (P : ∀ {β : Type}, LinkRun σ β → LinkRun τ β → Prop) : Prop
    extends LinkRun.Sequential P where
  adapt : ∀ {β : Type} (f : CompileError → CompileError) {x : LinkRun σ β} {y : LinkRun τ β},
    P x y → P (ExceptT.adapt f x) (ExceptT.adapt f y)

variable {P : ∀ {β : Type}, LinkRun σ β → LinkRun τ β → Prop}

theorem LinkRun.Closed.raise (h : Closed P) {β : Type} (e : CompileError) :
    P (throw e : LinkRun σ β) (throw e) :=
  h.adapt (fun _ => e) (h.fail (.malformedLayout []) rfl)

theorem LinkRun.Closed.liftExcept (h : Closed P) {β : Type} (x : Except CompileError β) :
    P (compileRun.liftExcept x : LinkRun σ β) (compileRun.liftExcept x) := by
  cases x with
  | ok b => exact h.done b
  | error e => exact h.raise e

/-- A preorder between the state that a run starts in and the one that it leaves. -/
theorem LinkRun.closed_of_preorder {R : Schooled σ → Schooled σ → Prop} (refl : ∀ st, R st st)
    (trans : ∀ {st st' st''}, R st st' → R st' st'' → R st st'') :
    Closed fun {β} (x _ : LinkRun σ β) => ∀ st, R st (x.start st).2 where
  done _ st := refl st
  fail _ _ st := refl st
  bind {β γ x _ f _} hx hf := by
    intro st
    have first := hx st
    rw [Run.start_bind]
    rcases run : x.start st with ⟨_ | b, t⟩ <;> rw [run] at first
    · exact first
    · exact trans first (hf b t)
  adapt _ _ _ hx := hx

theorem LinkRun.Sequential.guard (h : Sequential P) {β γ : Type} (c : Prop) [Decidable c]
    {e : CompileError} (stop : P (throw e : LinkRun σ β) (throw e)) {x : LinkRun σ γ}
    {y : LinkRun τ γ} (rest : P x y) :
    P (if c then (throw e : LinkRun σ β) >>= fun _ => x else x)
      (if c then (throw e : LinkRun τ β) >>= fun _ => y else y) := by
  split
  · exact h.bind stop fun _ => rest
  · exact rest

namespace Compile

/-- A sequential relation that holds of what links ask of the schema. -/
structure Schooling (P : ∀ {β : Type}, LinkRun σ β → LinkRun τ β → Prop) (client : Client α σ)
    (client' : Client α τ) : Prop extends LinkRun.Sequential P where
  columns : ∀ t, P (LinkCheck.columns client t) (LinkCheck.columns client' t)
  lineage : ∀ t, P (LinkCheck.summarySource client t) (LinkCheck.summarySource client' t)

/-- A sequential relation that holds of everything that is read of the document. -/
structure Reading (P : ∀ {β : Type}, LinkRun σ β → LinkRun τ β → Prop) (client : Client α σ)
    (client' : Client α τ) : Prop extends Schooling P client client' where
  fetch : ∀ id, P (fetch client id) (fetch client' id)

variable {client : Client α σ} {client' : Client α τ}

/-! ## Links -/

namespace Schooling

variable (h : Schooling P client client') (rules : LinkRules)
include h

theorem related : Loads.Related P (.keeping client) (.keeping client') where
  done := h.done
  fail := h.fail
  bind := h.bind
  columns := h.columns
  lineage := h.lineage

theorem check (l : Link) (ends : LinkEnds) (label : String) :
    P (LinkCheck.check client rules l ends label) (LinkCheck.check client' rules l ends label) :=
  h.related.check rules l ends label

theorem resolve (l : Link) (source : SectionId) (ends : LinkEnds) (label : String) :
    P (LinkCheck.resolve client rules l source ends label)
      (LinkCheck.resolve client' rules l source ends label) :=
  h.related.resolve rules l source ends label

variable (plan : Plan α) (r : Registry) (s : Surroundings)

theorem checkLinks (ls : List PendingLink) :
    P (Compile.checkLinks client rules plan r s ls)
      (Compile.checkLinks client' rules plan r s ls) := by
  induction ls with
  | nil => exact h.done _
  | cons l ls ih =>
    unfold Compile.checkLinks
    cases s.ends r l with
    | none => exact ih
    | some ends => exact h.bind (h.check rules l.link ends _) fun _ => ih

theorem resolveLink (l : PendingLink) :
    P (Compile.resolveLink client rules plan r s l)
      (Compile.resolveLink client' rules plan r s l) := by
  unfold Compile.resolveLink
  dsimp only
  cases r.lookupTarget l.target with
  | none => exact h.fail _ rfl
  | some source =>
    cases s.ends r l with
    | none => exact h.fail _ rfl
    | some ends => exact h.resolve rules l.link source ends _

theorem resolveOrDefer (ls : List PendingLink) (p : Progress) :
    P (Compile.resolveOrDefer client rules plan s ls p)
      (Compile.resolveOrDefer client' rules plan s ls p) := by
  induction ls generalizing p with
  | nil => exact h.done p
  | cons l ls ih =>
    unfold Compile.resolveOrDefer
    split
    · exact h.bind (h.resolveLink rules plan p.registry s l) fun _ => ih _
    · exact ih _

theorem resolveDrained (closed : LinkRun.Closed P) (ls : List PendingLink) (p : Progress) :
    P (Compile.resolveDrained client rules plan s ls p)
      (Compile.resolveDrained client' rules plan s ls p) := by
  induction ls generalizing p with
  | nil => exact h.done p
  | cons l ls ih =>
    exact h.bind (closed.adapt _ (h.resolveLink rules plan p.registry s l)) fun _ => ih _

end Schooling

/-! ## The surroundings -/

namespace Reading

variable (h : Reading P client client')
include h

theorem fetchPanes (ps : List PanePlan) (s : Surroundings) :
    P (Compile.fetchPanes client ps s) (Compile.fetchPanes client' ps s) := by
  induction ps generalizing s with
  | nil => exact h.done _
  | cons p ps ih =>
    unfold Compile.fetchPanes
    cases p.ref with
    | placeholder _ => exact ih _
    | real id =>
      refine h.bind (h.fetch id) fun w => ?_
      cases w with
      | some w => exact ih _
      | none => exact h.bind (ih _) fun _ => h.done _

theorem fetchTargets (ls : List PendingLink) (r : Registry)
    (ws : SortedMap SectionId WidgetInfo) :
    P (Compile.fetchTargets client ls r ws) (Compile.fetchTargets client' ls r ws) := by
  induction ls generalizing r ws with
  | nil => exact h.done _
  | cons l ls ih =>
    unfold Compile.fetchTargets
    cases l.target with
    | name key => exact ih r ws
    | id id =>
      dsimp only
      split
      · exact ih r ws
      · refine h.bind (h.fetch id) fun w => ?_
        cases w with
        | some w => exact ih _ _
        | none => exact ih r ws

theorem survey (rules : LinkRules) (plan : Plan α) :
    P (Compile.survey client rules plan) (Compile.survey client' rules plan) := by
  refine h.bind (h.fetchPanes plan.panes _) fun x => h.guard _ (h.fail _ rfl) ?_
  refine h.bind (h.fetchTargets plan.links plan.registry x.1.widgets) fun y => ?_
  exact h.bind (h.checkLinks rules plan y.1 _ plan.links) fun _ => h.done _

end Reading

/-! ## The whole run -/

/-- A closed relation that holds of everything a run calls before it sends its bundle. -/
structure Populating (P : ∀ {β : Type}, LinkRun σ β → LinkRun τ β → Prop) (client : Client α σ)
    (client' : Client α τ) : Prop extends LinkRun.Closed P, Reading P client client' where
  make : ∀ (i : Nat) t type view, P (LinkRun.ask (.createWidget i t) (client.createWidget t type view))
    (LinkRun.ask (.createWidget i t) (client'.createWidget t type view))

section
variable [Scalar α]

/-- The run up to its last creation, with what the rest of it needs. -/
def populate (client : Client α σ) (config : CompilerConfig) (request : LayoutRequest α) :
    LinkRun σ (Plan α × Surroundings × Progress) := do
  let plan ← compileRun.liftExcept (Plan.make request.layout request.tables)
  if request.view.isNone && plan.creations.isEmpty then throw (.malformed .noViewGiven)
  let rules := LinkRules.ofConfig request.tables config
  let (registry, s) ← survey client rules plan
  let p ← resolveOrDefer client rules plan s plan.links ⟨registry, request.view, [], ∅⟩
  let p ← createAll client rules plan s plan.creations p
  return (plan, s, p)

/-- The rest of the run, which sends the bundle. -/
def conclude (client : Client α σ) (id : Uuid) (plan : Plan α) (s : Surroundings) (p : Progress) :
    LinkRun σ (CompileOutcome α) := do
  if !p.registry.pending.isEmpty then
    throw (.danglingLinkTarget (dangling plan p.registry.pending) p.created)
  let some view := p.view | throw (.malformed .noView)
  let plan := { plan with registry := p.registry }
  let layout ← compileRun.liftExcept plan.nativeLayout
  let mutations ← compileRun.liftExcept (plan.mutations view layout p.tuples)
  applyBundle client mutations p.created
  let widgets ← compileRun.liftExcept (finalWidgets plan s p plan.panes)
  return ⟨id, view, layout, mutations, widgets, p.created.map (·.id), fingerprint mutations⟩

theorem compileRun_eq (client : Client α σ) (config : CompilerConfig) (id : Uuid)
    (request : LayoutRequest α) : compileRun client config id request =
      (populate client config request >>= fun x => conclude client id x.1 x.2.1 x.2.2) := by
  refine Eq.trans ?_ (bind_assoc _ _ _).symm
  refine bind_congr fun plan => ?_
  split
  · rfl
  · refine Eq.trans (bind_congr fun x => ?_) (bind_assoc _ _ _).symm
    refine Eq.trans (bind_congr fun p => ?_) (bind_assoc _ _ _).symm
    refine Eq.trans (bind_congr fun p => ?_) (bind_assoc _ _ _).symm
    exact (pure_bind _ _).symm

end

namespace Populating

variable (h : Populating P client client')
include h

theorem create (c : Creation) (p : Progress) :
    P (Compile.create client c p) (Compile.create client' c p) :=
  h.bind (h.adapt _ (h.make c.paneIndex c.table c.type p.view)) fun _ => h.done _

theorem createAll (rules : LinkRules) (plan : Plan α) (s : Surroundings) (cs : List Creation)
    (p : Progress) : P (Compile.createAll client rules plan s cs p)
      (Compile.createAll client' rules plan s cs p) := by
  induction cs generalizing p with
  | nil => exact h.done p
  | cons c cs ih =>
    refine h.bind (h.create c p) fun p₁ => ?_
    exact h.bind (h.resolveDrained rules plan s h.toClosed _ _) ih

theorem populate [Scalar α] (config : CompilerConfig) (request : LayoutRequest α) :
    P (Compile.populate client config request) (Compile.populate client' config request) := by
  refine h.bind (h.liftExcept _) fun plan => h.guard _ (h.fail _ rfl) ?_
  refine h.bind (h.survey _ plan) fun x => ?_
  refine h.bind (h.resolveOrDefer _ plan x.2 plan.links _) fun p => ?_
  exact h.bind (h.createAll _ plan x.2 plan.creations p) fun p => h.done _

end Populating

/-- Past the last creation a run calls the client once, to apply the bundle. -/
theorem conclude_closed [Scalar α] (h : LinkRun.Closed P) (client : Client α σ) (client' : Client α τ)
    (send : ∀ ms created, P (applyBundle client ms created) (applyBundle client' ms created))
    (id : Uuid) (plan : Plan α) (s : Surroundings) (p : Progress) :
    P (conclude client id plan s p) (conclude client' id plan s p) := by
  unfold conclude
  cases p.view with
  | none => exact h.guard _ (h.raise _) (h.fail _ rfl)
  | some view =>
    refine h.guard _ (h.raise _) ?_
    refine h.bind (h.liftExcept _) fun page => ?_
    refine h.bind (h.liftExcept _) fun ms => ?_
    refine h.bind (send ms p.created) fun _ => ?_
    exact h.bind (h.liftExcept _) fun ws => h.done _

end Compile
end PaneLayout
