import PaneLayout.Proofs.Closed
import PaneLayout.Proofs.Pairs
import PaneLayout.Proofs.Steady

set_option autoImplicit false

/-!
# Runs that keep pace

Two runs that ask for the same and are answered alike learn the same of the schema, and end alike.
What else the two clients hold may differ: a relation between their states is carried along.
-/

namespace PaneLayout

variable {α σ τ β : Type}

/-- What both clients answer, and that they stay alike. -/
def AnswerAlike (R : σ → τ → Prop) (x : Reply σ β) (y : Reply τ β) : Prop :=
  y.1 = x.1 ∧ R x.2 y.2

/-- The same has been learned on both sides. -/
structure Level (R : σ → τ → Prop) (st : Schooled σ) (st' : Schooled τ) : Prop where
  engines : R st.engine st'.engine
  columns : st'.columns = st.columns
  lineage : st'.lineage = st.lineage

/-- What comes out of the runs is the same, and they are still level. -/
def LinkRun.Paced (R : σ → τ → Prop) (x : LinkRun σ β) (y : LinkRun τ β) : Prop :=
  ∀ st st', Level R st st' → x.Pairs y st st' (fun b c t t' => c = b ∧ Level R t t')
    fun e e' t t' => e' = e ∧ e.created = [] ∧ Level R t t'

variable {R : σ → τ → Prop}

theorem level_fresh {s : σ} {s' : τ} (h : R s s') : Level R (.fresh s) (.fresh s') := ⟨h, rfl, rfl⟩

theorem LinkRun.paced_sequential :
    Sequential fun {β} (x : LinkRun σ β) (y : LinkRun τ β) => x.Paced R y where
  done _ _ _ h := .ok rfl rfl ⟨rfl, h⟩
  fail _ blank _ _ h := .error rfl rfl ⟨rfl, blank, h⟩
  bind {β γ x y f g} hx hf := by
    intro st st' h
    refine Run.Pairs.bind ((hx st st' h).mono ?_ fun _ _ _ _ => id)
    rintro _ b t t' ⟨rfl, h⟩
    exact hf b t t' h

theorem LinkRun.paced_ask (step : FailedStep) {call : σ → Reply σ β} {call' : τ → Reply τ β}
    (alike : ∀ {s s'}, R s s' → AnswerAlike R (call s) (call' s')) :
    Paced R (ask step call) (ask step call') := by
  intro st st' h
  obtain ⟨same, engines⟩ := alike h.engines
  have run := start_ask step call st
  have run' := start_ask step call' st'
  rw [same] at run'
  cases answer : (call st.engine).1 <;> rw [answer] at run run'
  · exact .error run run' ⟨rfl, rfl, engines, h.columns, h.lineage⟩
  · exact .ok run run' ⟨rfl, engines, h.columns, h.lineage⟩

namespace Compile

variable {client : Client α σ} {client' : Client α τ}

/-- What a link asks of the schema. -/
theorem paced_schooling
    (columns : ∀ {s s'}, R s s' → ∀ t,
      AnswerAlike R (client.listColumns t s) (client'.listColumns t s'))
    (lineage : ∀ {s s'}, R s s' → ∀ t,
      AnswerAlike R (client.summarySource t s) (client'.summarySource t s')) :
    Schooling (fun {β} (x : LinkRun σ β) (y : LinkRun τ β) => x.Paced R y) client client' where
  toSequential := LinkRun.paced_sequential
  columns t := by
    intro st st' h
    refine Run.Pairs.bind (.ok (Run.start_get st) (Run.start_get st') ?_)
    rw [h.columns]
    cases st.columns.get? t with
    | some cols => exact .ok rfl rfl ⟨rfl, h⟩
    | none =>
      have asked := LinkRun.paced_ask (.loadSchema t) (fun hR => columns hR t) st st' h
      refine Run.Pairs.bind (asked.mono ?_ fun _ _ _ _ => id)
      rintro _ cols u u' ⟨rfl, h⟩
      refine .ok rfl rfl ⟨rfl, { h with columns := ?_ }⟩
      exact congrArg (SortedMap.insert · t cols) h.columns
  lineage t := by
    intro st st' h
    refine Run.Pairs.bind (.ok (Run.start_get st) (Run.start_get st') ?_)
    rw [h.lineage]
    cases st.lineage.get? t with
    | some source => exact .ok rfl rfl ⟨rfl, h⟩
    | none =>
      have asked := LinkRun.paced_ask (.loadSchema t) (fun hR => lineage hR t) st st' h
      refine Run.Pairs.bind (asked.mono ?_ fun _ _ _ _ => id)
      rintro _ source u u' ⟨rfl, h⟩
      refine .ok rfl rfl ⟨rfl, { h with lineage := ?_ }⟩
      exact congrArg (SortedMap.insert · t source) h.lineage

end Compile
end PaneLayout
