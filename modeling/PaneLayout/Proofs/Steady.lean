import PaneLayout.Proofs.Closed
import PaneLayout.Proofs.Run

set_option autoImplicit false

/-!
# Links resolved again

What a document answers about its tables is kept, so a link that was resolved once is resolved the
same way ever after. Nothing is asked again, whatever the document has become.
-/

namespace PaneLayout

variable {α σ β : Type}

/-! ## Kept answers -/

/-- Everything that was learned in the first state is still known in the second one. -/
structure Schooled.Extends (s t : Schooled σ) : Prop where
  columns : ∀ table cols, s.columns.get? table = some cols → t.columns.get? table = some cols
  lineage : ∀ table source, s.lineage.get? table = some source → t.lineage.get? table = some source

namespace Schooled.Extends

variable {s t u : Schooled σ}

theorem refl (s : Schooled σ) : s.Extends s := ⟨fun _ _ => id, fun _ _ => id⟩

theorem trans (h : s.Extends t) (h' : t.Extends u) : s.Extends u :=
  ⟨fun k v hv => h'.columns k v (h.columns k v hv), fun k v hv => h'.lineage k v (h.lineage k v hv)⟩

theorem of_engine (s : Schooled σ) (e : σ) : s.Extends { s with engine := e } :=
  ⟨fun _ _ => id, fun _ _ => id⟩

end Schooled.Extends

theorem SortedMap.get?_insert_of_new {κ ν : Type} [DecidableEq κ] [KeyOrder κ] {m : SortedMap κ ν}
    {k j : κ} {v w : ν} (new : m.get? k = none) (h : m.get? j = some w) :
    (m.insert k v).get? j = some w := by
  have other : j ≠ k := by
    rintro rfl
    rw [new] at h
    cases h
  rw [m.get?_insert_of_ne v other, h]

/-! ## Steady runs -/

theorem LinkRun.start_ask (step : FailedStep) (call : σ → Reply σ β) (st : Schooled σ) :
    (ask step call).start st = ((call st.engine).1.mapError fun f =>
      .collaboratorFailure step f.message [], { st with engine := (call st.engine).2 }) := by
  rw [ask, Run.start_ofReply]
  rcases call st.engine with ⟨_ | _, _⟩ <;> rfl

theorem LinkRun.yields_ask {step : FailedStep} {call : σ → Reply σ β} {s : Schooled σ}
    {Q : β → Schooled σ → Prop} {E : CompileError → Schooled σ → Prop} :
    (ask step call).Yields s Q E ↔ match call s.engine with
      | (.ok b, e) => Q b { s with engine := e }
      | (.error f, e) => E (.collaboratorFailure step f.message []) { s with engine := e } := by
  rw [ask, Run.yields_ofReply]
  rcases call s.engine with ⟨_ | _, e⟩ <;> exact Iff.rfl

/-- The run gives its value again in every state that has learned more, and leaves it unchanged. -/
def LinkRun.Steady (x : LinkRun σ β) : Prop :=
  ∀ s, x.Yields s (fun b t => s.Extends t ∧ ∀ u, t.Extends u → x.start u = (.ok b, u))
    fun _ _ => True

theorem LinkRun.steady_closed : LinkRun.Closed fun {β} (x _ : LinkRun σ β) => x.Steady where
  done b s := ⟨.refl s, fun _ _ => rfl⟩
  fail _ _ _ := trivial
  bind {β γ x _ f _} hx hf := by
    intro s
    rw [Run.yields_bind]
    refine (hx s).mono ?_ fun _ _ => id
    rintro b t ⟨more, again⟩
    refine (hf b t).mono ?_ fun _ _ => id
    rintro c u ⟨more', again'⟩
    refine ⟨more.trans more', fun v hv => ?_⟩
    rw [Run.start_bind, again v (more'.trans hv)]
    exact again' v hv
  adapt {β} f x _ hx := by
    intro s
    rw [Run.yields_adapt]
    refine (hx s).mono ?_ fun _ _ => id
    rintro b t ⟨more, again⟩
    refine ⟨more, fun u hu => ?_⟩
    rw [Run.start_adapt, again u hu]
    rfl

namespace LinkCheck

variable (client : Client α σ) (table : TableRef)

theorem columns_start {s : Schooled σ} {cols : List ColumnInfo}
    (known : s.columns.get? table = some cols) :
    (columns client table).start s = (.ok cols, s) := by
  rw [columns, Run.start_bind, Run.start_get]
  dsimp only
  rw [known]
  rfl

theorem summarySource_start {s : Schooled σ} {source : Option TableRef}
    (known : s.lineage.get? table = some source) :
    (summarySource client table).start s = (.ok source, s) := by
  rw [summarySource, Run.start_bind, Run.start_get]
  dsimp only
  rw [known]
  rfl

theorem columns_start_new {s : Schooled σ} (new : s.columns.get? table = none) :
    (columns client table).start s = match client.listColumns table s.engine with
      | (.ok cols, e) => (.ok cols, ⟨e, s.columns.insert table cols, s.lineage⟩)
      | (.error f, e) =>
        (.error (.collaboratorFailure (.loadSchema table) f.message []), { s with engine := e }) := by
  rw [columns, Run.start_bind, Run.start_get]
  dsimp only
  rw [new, Run.start_bind, LinkRun.ask, Run.start_ofReply]
  rcases client.listColumns table s.engine with ⟨_ | cols, e⟩ <;> rfl

theorem summarySource_start_new {s : Schooled σ} (new : s.lineage.get? table = none) :
    (summarySource client table).start s = match client.summarySource table s.engine with
      | (.ok source, e) => (.ok source, ⟨e, s.columns, s.lineage.insert table source⟩)
      | (.error f, e) =>
        (.error (.collaboratorFailure (.loadSchema table) f.message []), { s with engine := e }) := by
  rw [summarySource, Run.start_bind, Run.start_get]
  dsimp only
  rw [new, Run.start_bind, LinkRun.ask, Run.start_ofReply]
  rcases client.summarySource table s.engine with ⟨_ | source, e⟩ <;> rfl

section
variable {s : Schooled σ}

/-- The columns are known, or the call for them fails, or its answer is kept. -/
theorem yields_columns {Q : List ColumnInfo → Schooled σ → Prop}
    {E : CompileError → Schooled σ → Prop}
    (old : ∀ cols, s.columns.get? table = some cols → Q cols s)
    (refused : ∀ f e, client.listColumns table s.engine = (.error f, e) →
      E (.collaboratorFailure (.loadSchema table) f.message []) { s with engine := e })
    (new : ∀ cols e, s.columns.get? table = none →
      client.listColumns table s.engine = (.ok cols, e) →
      Q cols ⟨e, s.columns.insert table cols, s.lineage⟩) :
    (columns client table).Yields s Q E := by
  cases known : s.columns.get? table with
  | some cols => exact .of_ok (columns_start client table known) (old cols known)
  | none =>
    have first := columns_start_new client table known
    rcases answer : client.listColumns table s.engine with ⟨f | cols, e⟩ <;> rw [answer] at first
    · exact .of_error first (refused f e answer)
    · exact .of_ok first (new cols e known answer)

theorem yields_summarySource {Q : Option TableRef → Schooled σ → Prop}
    {E : CompileError → Schooled σ → Prop}
    (old : ∀ source, s.lineage.get? table = some source → Q source s)
    (refused : ∀ f e, client.summarySource table s.engine = (.error f, e) →
      E (.collaboratorFailure (.loadSchema table) f.message []) { s with engine := e })
    (new : ∀ source e, s.lineage.get? table = none →
      client.summarySource table s.engine = (.ok source, e) →
      Q source ⟨e, s.columns, s.lineage.insert table source⟩) :
    (summarySource client table).Yields s Q E := by
  cases known : s.lineage.get? table with
  | some source => exact .of_ok (summarySource_start client table known) (old source known)
  | none =>
    have first := summarySource_start_new client table known
    rcases answer : client.summarySource table s.engine with ⟨f | source, e⟩ <;>
      rw [answer] at first
    · exact .of_error first (refused f e answer)
    · exact .of_ok first (new source e known answer)

end

theorem columns_steady : (columns client table).Steady := by
  refine fun s => yields_columns client table ?_ (fun _ _ _ => trivial) ?_
  · intro cols known
    refine ⟨.refl s, fun u hu => ?_⟩
    exact columns_start client table (hu.columns table cols known)
  · intro cols e unknown _
    refine ⟨⟨fun t cs => ?_, fun _ _ => id⟩, fun u hu => ?_⟩
    · exact SortedMap.get?_insert_of_new unknown
    · exact columns_start client table (hu.columns table cols (SortedMap.get?_insert_self ..))

theorem summarySource_steady : (summarySource client table).Steady := by
  refine fun s => yields_summarySource client table ?_ (fun _ _ _ => trivial) ?_
  · intro source known
    refine ⟨.refl s, fun u hu => ?_⟩
    exact summarySource_start client table (hu.lineage table source known)
  · intro source e unknown _
    refine ⟨⟨fun _ _ => id, fun t src => ?_⟩, fun u hu => ?_⟩
    · exact SortedMap.get?_insert_of_new unknown
    · exact summarySource_start client table
        (hu.lineage table source (SortedMap.get?_insert_self ..))

end LinkCheck

theorem Compile.steady_schooling (client : Client α σ) :
    Schooling (fun {β} (x _ : LinkRun σ β) => x.Steady) client client where
  toSequential := LinkRun.steady_closed.toSequential
  columns := LinkCheck.columns_steady client
  lineage := LinkCheck.summarySource_steady client

theorem Compile.resolveLink_steady (client : Client α σ) (rules : LinkRules) (plan : Plan α)
    (r : Registry) (s : Surroundings) (l : PendingLink) :
    (resolveLink client rules plan r s l).Steady :=
  (steady_schooling client).resolveLink rules plan r s l

end PaneLayout
