import PaneLayout.Proofs.Mirror
import PaneLayout.Proofs.Standing

set_option autoImplicit false

/-!
# Traces

A client that keeps a list of its calls beside its state, not as lines of text like a journal but
with their arguments and answers. A run on it does what it does on the client itself. The list only
grows, and what only reads adds no writes to it.
-/

namespace PaneLayout

/-- A creation and its answer. -/
structure CreateCall where
  table : TableRef
  type : WidgetType
  view : Option ViewRef
  answer : Except Fault CreatedWidget

/-- A call to a client and what it was answered. -/
inductive Event (α : Type) where
  | createWidget (call : CreateCall)
  | applyMutations (ms : List (Mutation α)) (answer : Except Fault Unit)
  | fetchWidget (id : SectionId) (answer : Except Fault (Option WidgetInfo))
  | loadLayout (view : ViewRef) (answer : Except Fault (Option (Native α SectionId)))
  | listColumns (t : TableRef) (answer : Except Fault (List ColumnInfo))
  | summarySource (t : TableRef) (answer : Except Fault (Option TableRef))

variable {α σ β : Type}

def Event.isWrite : Event α → Bool
  | createWidget _ | applyMutations _ _ => true
  | _ => false

abbrev Traced (α σ : Type) := σ × List (Event α)

namespace Client

def note (event : Except Fault β → Event α) (call : σ → Reply σ β) (s : Traced α σ) :
    Reply (Traced α σ) β :=
  ((call s.1).1, (call s.1).2, s.2 ++ [event (call s.1).1])

def traced (client : Client α σ) : Client α (Traced α σ) where
  createWidget t type view :=
    note (fun answer => .createWidget ⟨t, type, view, answer⟩) (client.createWidget t type view)
  applyMutations ms := note (.applyMutations ms) (client.applyMutations ms)
  fetchWidget id := note (.fetchWidget id) (client.fetchWidget id)
  loadLayout view := note (.loadLayout view) (client.loadLayout view)
  listColumns t := note (.listColumns t) (client.listColumns t)
  summarySource t := note (.summarySource t) (client.summarySource t)

end Client

def Schooled.trace (st : Schooled (Traced α σ)) : List (Event α) := st.engine.2

/-! ## The list changes nothing -/

theorem Client.mirrors_traced (client : Client α σ) : client.Mirrors Prod.fst client.traced where
  createWidget _ _ _ _ := rfl
  fetchWidget _ _ := rfl
  listColumns _ _ := rfl
  summarySource _ _ := rfl

theorem LinkRun.start_ask_note (step : FailedStep) (event : Except Fault β → Event α)
    (call : σ → Reply σ β) (st : Schooled (Traced α σ)) : (ask step (Client.note event call)).start st =
      ((call st.engine.1).1.mapError fun f => .collaboratorFailure step f.message [],
        { st with engine := ((call st.engine.1).2, st.trace ++ [event (call st.engine.1).1]) }) := by
  rw [start_ask]
  rfl

theorem Client.trace_note {event : Except Fault β → Event α} {call : σ → Reply σ β}
    {s e : Traced α σ} {r : Except Fault β} (answer : note event call s = (r, e)) :
    e.2 = s.2 ++ [event r] := by
  obtain ⟨rfl, rfl⟩ := Prod.mk.inj answer
  rfl

theorem Client.trace_applyMutations (client : Client α σ) (ms : List (Mutation α))
    (st : Schooled (Traced α σ)) :
    Schooled.trace { st with engine := (client.traced.applyMutations ms st.engine).2 } =
      st.trace ++ [.applyMutations ms (client.traced.applyMutations ms st.engine).1] := rfl

open Compile in
/-- A trace changes neither what a compilation ends in nor what it does to the client. -/
theorem compile_traced [Scalar α] (client : Client α σ) (config : CompilerConfig) (id : Uuid)
    (request : LayoutRequest α) (s : σ) : ∃ es, compile client.traced config id request (s, []) =
      ((compile client config id request s).1, (compile client config id request s).2, es) := by
  have mirrored : (compileRun client config id request).Mirrors Prod.fst
      (compileRun client.traced config id request) := by
    rw [compileRun_eq, compileRun_eq]
    have send (ms) : Reply.Mirrors Prod.fst (client.applyMutations ms)
        (client.traced.applyMutations ms) := fun _ => rfl
    have before := (mirrors_populating client.mirrors_traced).populate config request
    exact LinkRun.mirrors_closed.bind before fun x => conclude_closed LinkRun.mirrors_closed client
      client.traced (fun ms => applyBundle_mirrors (send ms)) id x.1 x.2.1 x.2.2
  have same : (compileRun client config id request).start (.fresh s) = _ :=
    mirrored (.fresh (s, []))
  refine ⟨((compileRun client.traced config id request).start (.fresh (s, []))).2.trace, ?_⟩
  rw [compile, compile, same]
  rfl

/-! ## Reading adds no writes -/

theorem Event.reads_nil (es : List (Event α)) :
    ∃ rs, es = es ++ rs ∧ ∀ e ∈ rs, e.isWrite = false :=
  ⟨[], (List.append_nil es).symm, fun _ none => nomatch none⟩

/-- The run adds only readings to the trace, whichever way it ends. -/
def LinkRun.Quiet (x : LinkRun (Traced α σ) β) : Prop :=
  ∀ st, ∃ es, (x.start st).2.trace = st.trace ++ es ∧ ∀ e ∈ es, e.isWrite = false

theorem LinkRun.quiet_closed : Closed fun {β} (x _ : LinkRun (Traced α σ) β) => x.Quiet := by
  refine closed_of_preorder
    (R := fun st st' => ∃ es, st'.trace = st.trace ++ es ∧ ∀ e ∈ es, e.isWrite = false)
    (fun st => Event.reads_nil st.trace) ?_
  rintro st st' st'' ⟨es, trace, reads⟩ ⟨es', trace', reads'⟩
  refine ⟨es ++ es', ?_, List.forall_mem_append.2 ⟨reads, reads'⟩⟩
  rw [trace', trace, List.append_assoc]

theorem LinkRun.quiet_of_yields {x : LinkRun (Traced α σ) β}
    (h : ∀ st : Schooled (Traced α σ), x.Yields st
      (fun _ st' => ∃ es, st'.trace = st.trace ++ es ∧ ∀ e ∈ es, e.isWrite = false)
      fun _ st' => ∃ es, st'.trace = st.trace ++ es ∧ ∀ e ∈ es, e.isWrite = false) : x.Quiet :=
  fun st => Run.yields_end_iff.1 (h st)

theorem LinkRun.quiet_ask (step : FailedStep) (event : Except Fault β → Event α)
    (read : ∀ answer, (event answer).isWrite = false) (call : σ → Reply σ β) :
    (ask step (Client.note event call)).Quiet := by
  intro st
  refine ⟨[event (call st.engine.1).1], ?_, List.forall_mem_singleton.2 (read _)⟩
  rw [start_ask_note]
  rfl

namespace Compile

variable (client : Client α σ)

theorem quiet_reading : Reading (fun {β} (x _ : LinkRun (Traced α σ) β) => x.Quiet) client.traced
    client.traced where
  toSequential := LinkRun.quiet_closed.toSequential
  columns t := by
    refine LinkRun.quiet_of_yields fun st => ?_
    refine LinkCheck.yields_columns _ t (fun _ _ => Event.reads_nil _) ?_ ?_
    · exact fun f e answer => ⟨_, Client.trace_note answer, List.forall_mem_singleton.2 rfl⟩
    · exact fun cols e _ answer => ⟨_, Client.trace_note answer, List.forall_mem_singleton.2 rfl⟩
  lineage t := by
    refine LinkRun.quiet_of_yields fun st => ?_
    refine LinkCheck.yields_summarySource _ t (fun _ _ => Event.reads_nil _) ?_ ?_
    · exact fun f e answer => ⟨_, Client.trace_note answer, List.forall_mem_singleton.2 rfl⟩
    · exact fun source e _ answer => ⟨_, Client.trace_note answer, List.forall_mem_singleton.2 rfl⟩
  fetch id := LinkRun.quiet_ask (.fetchWidget id) (.fetchWidget id) (fun _ => rfl)
    (client.fetchWidget id)

end Compile

/-! ## A trace only grows -/

def LinkRun.Grows (x : LinkRun (Traced α σ) β) : Prop :=
  ∀ st, st.trace <+: (x.start st).2.trace

theorem LinkRun.Quiet.grows {x : LinkRun (Traced α σ) β} (quiet : x.Quiet) : x.Grows := by
  intro st
  obtain ⟨es, trace, -⟩ := quiet st
  exact trace ▸ List.prefix_append _ _

theorem LinkRun.Grows.yields {x : LinkRun (Traced α σ) β} (h : x.Grows)
    (st : Schooled (Traced α σ)) :
    x.Yields st (fun _ st' => st.trace <+: st'.trace) fun _ st' => st.trace <+: st'.trace :=
  Run.yields_end_iff.2 (h st)

theorem LinkRun.grows_closed : Closed fun {β} (x _ : LinkRun (Traced α σ) β) => x.Grows :=
  closed_of_preorder (R := fun st st' => st.trace <+: st'.trace) (fun _ => List.prefix_rfl)
    List.IsPrefix.trans

theorem LinkRun.Grows.bind {γ : Type} {x : LinkRun (Traced α σ) β}
    {f : β → LinkRun (Traced α σ) γ} (hx : x.Grows) (hf : ∀ b, (f b).Grows) : (x >>= f).Grows :=
  grows_closed.bind (y := x) (g := f) hx hf

theorem Compile.grows_populating (client : Client α σ) :
    Populating (fun {β} (x _ : LinkRun (Traced α σ) β) => x.Grows) client.traced client.traced where
  toClosed := LinkRun.grows_closed
  columns t := ((quiet_reading client).columns t).grows
  lineage t := ((quiet_reading client).lineage t).grows
  fetch id := ((quiet_reading client).fetch id).grows
  make i t type view := by
    intro st
    rw [Client.traced, LinkRun.start_ask_note]
    exact List.prefix_append _ _
end PaneLayout
