import PaneLayout.Proofs.Steady

set_option autoImplicit false

/-!
# Runs seen through a function

A function from the states of one client to those of another that goes along with every call: both
give the same answer, and the function takes the state that the one is left in to that of the other.
Then it goes along with whole runs.
-/

namespace PaneLayout

variable {α σ τ β : Type}

def Schooled.map (φ : τ → σ) (st : Schooled τ) : Schooled σ := ⟨φ st.engine, st.columns, st.lineage⟩

def Reply.Mirrors (φ : τ → σ) (call : σ → Reply σ β) (call' : τ → Reply τ β) : Prop :=
  ∀ s, call (φ s) = ((call' s).1, φ (call' s).2)

def LinkRun.Mirrors (φ : τ → σ) (x : LinkRun σ β) (y : LinkRun τ β) : Prop :=
  ∀ st, x.start (st.map φ) = ((y.start st).1, (y.start st).2.map φ)

/-- The function goes along with every call that is made before the bundle is sent. -/
structure Client.Mirrors (φ : τ → σ) (client : Client α σ) (client' : Client α τ) : Prop where
  createWidget : ∀ t type view,
    Reply.Mirrors φ (client.createWidget t type view) (client'.createWidget t type view)
  fetchWidget : ∀ id, Reply.Mirrors φ (client.fetchWidget id) (client'.fetchWidget id)
  listColumns : ∀ t, Reply.Mirrors φ (client.listColumns t) (client'.listColumns t)
  summarySource : ∀ t, Reply.Mirrors φ (client.summarySource t) (client'.summarySource t)

variable {φ : τ → σ}

theorem LinkRun.mirrors_closed : Closed fun {β} (x : LinkRun σ β) (y : LinkRun τ β) =>
    x.Mirrors φ y where
  done _ _ := rfl
  fail _ _ _ := rfl
  bind {β γ x y f g} hx hf := by
    intro st
    rw [Run.start_bind, Run.start_bind, hx st]
    rcases y.start st with ⟨_ | b, t⟩
    · rfl
    · exact hf b t
  adapt {β} f x y hx := by
    intro st
    rw [Run.start_adapt, Run.start_adapt, hx st]

theorem LinkRun.mirrors_ofReply {call : σ → Reply σ β} {call' : τ → Reply τ β}
    (h : Reply.Mirrors φ call call') (onFault : Fault → CompileError) :
    Mirrors φ (Run.ofReply
        (fun st => ((call st.engine).1, { st with engine := (call st.engine).2 })) onFault)
      (Run.ofReply
        (fun st => ((call' st.engine).1, { st with engine := (call' st.engine).2 })) onFault) := by
  intro st
  rw [Run.start_ofReply, Run.start_ofReply]
  simp only [Schooled.map, h st.engine]
  cases (call' st.engine).1 <;> rfl

namespace Compile

variable {client : Client α σ} {client' : Client α τ}

theorem mirrors_populating (h : client.Mirrors φ client') :
    Populating (fun {β} (x : LinkRun σ β) y => x.Mirrors φ y) client client' where
  toClosed := LinkRun.mirrors_closed
  columns t := by
    intro st
    cases known : st.columns.get? t with
    | some cols =>
      have seen : (st.map φ).columns.get? t = some cols := known
      rw [LinkCheck.columns_start _ t known, LinkCheck.columns_start _ t seen]
    | none =>
      have seen : (st.map φ).columns.get? t = none := known
      rw [LinkCheck.columns_start_new _ t known, LinkCheck.columns_start_new _ t seen]
      simp only [Schooled.map, h.listColumns t st.engine]
      rcases client'.listColumns t st.engine with ⟨_ | cols, e⟩ <;> rfl
  lineage t := by
    intro st
    cases known : st.lineage.get? t with
    | some source =>
      have seen : (st.map φ).lineage.get? t = some source := known
      rw [LinkCheck.summarySource_start _ t known, LinkCheck.summarySource_start _ t seen]
    | none =>
      have seen : (st.map φ).lineage.get? t = none := known
      rw [LinkCheck.summarySource_start_new _ t known, LinkCheck.summarySource_start_new _ t seen]
      simp only [Schooled.map, h.summarySource t st.engine]
      rcases client'.summarySource t st.engine with ⟨_ | source, e⟩ <;> rfl
  fetch id := LinkRun.mirrors_ofReply (h.fetchWidget id) _
  make i t type view := LinkRun.mirrors_ofReply (h.createWidget t type view) _

theorem applyBundle_mirrors {ms : List (Mutation α)}
    (h : Reply.Mirrors φ (client.applyMutations ms) (client'.applyMutations ms))
    (created : List WidgetInfo) :
    (applyBundle client ms created).Mirrors φ (applyBundle client' ms created) :=
  LinkRun.mirrors_ofReply h _

end Compile
end PaneLayout
