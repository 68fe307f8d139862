import PaneLayout.Proofs.Answers

set_option autoImplicit false

/-!
# The calls of a compilation

Whatever a client answers, what is called and in which order is settled by the request: a creation
for each new pane from left to right, and one bundle at the end, with the tuples to which the answers
resolve the links. `Played` is the grammar of these traces, `Protocol` says what it comes to, call by
call.
-/

namespace PaneLayout

variable {α σ : Type}

/-! ## Creations -/

namespace LayoutRequest

/-- The `i`-th new pane is of this type, and the name of its table stands for this one. -/
def Due (request : LayoutRequest α) (i : Nat) (table : TableRef) (type : WidgetType) : Prop :=
  ∃ t name info, request.layout = some t ∧ t.newPanes[i]? = some (.new name type info) ∧
    request.tables.get? name = some table

/-- The view that is created on, the widgets `ws` being there. -/
def viewAfter (request : LayoutRequest α) (ws : List CreatedWidget) : Option ViewRef :=
  request.view <|> ws.head?.map (·.view)

theorem viewAfter_concat (request : LayoutRequest α) (ws : List CreatedWidget) (w : CreatedWidget) :
    request.viewAfter (ws ++ [w]) = (request.viewAfter ws <|> some w.view) := by
  unfold viewAfter
  cases request.view <;> cases ws <;> rfl

end LayoutRequest

/-- A run whose creations were answered with `ws`. What it reads in between is left open. -/
inductive Creating (request : LayoutRequest α) : List CreatedWidget → List (Event α) → Prop
  | start : Creating request [] []
  | read {ws : List CreatedWidget} {es : List (Event α)} {e : Event α} :
    Creating request ws es → e.isWrite = false → Creating request ws (es ++ [e])
  | create {ws : List CreatedWidget} {es : List (Event α)} {table : TableRef} {type : WidgetType}
    {w : CreatedWidget} : Creating request ws es → request.Due ws.length table type →
    Creating request (ws ++ [w])
      (es ++ [.createWidget ⟨table, type, request.viewAfter ws, .ok w⟩])

variable {request : LayoutRequest α} {ws : List CreatedWidget} {es : List (Event α)}

theorem Creating.reads (h : Creating request ws es) {rs : List (Event α)}
    (reads : ∀ e ∈ rs, e.isWrite = false) : Creating request ws (es ++ rs) := by
  induction rs generalizing es with
  | nil => rwa [List.append_nil]
  | cons e rs ih =>
    obtain ⟨first, rest⟩ := List.forall_mem_cons.1 reads
    rw [List.append_cons]
    exact ih (h.read first) rest

namespace Event

def creation? : Event α → Option CreateCall
  | createWidget call => some call
  | _ => none

/-- Nothing may follow. -/
def isLast : Event α → Bool
  | createWidget call => !call.answer.toBool
  | applyMutations _ _ => true
  | _ => false

end Event

def creations (es : List (Event α)) : List CreateCall := es.filterMap Event.creation?

theorem creations_concat (es : List (Event α)) (e : Event α) :
    creations (es ++ [e]) = creations es ++ e.creation?.toList := by
  unfold creations
  rw [List.filterMap_append]
  cases h : e.creation? <;> simp [h]

theorem creations_read {e : Event α} (read : e.isWrite = false) :
    creations (es ++ [e]) = creations es := by
  have silent : e.creation? = none := by cases e <;> first | rfl | cases read
  rw [creations_concat, silent, Option.toList_none, List.append_nil]

/-- The calls are due one after the other, the widgets `ws` having been there in time. -/
def Regular (request : LayoutRequest α) (ws : List CreatedWidget) (calls : List CreateCall) :
    Prop :=
  ∀ i call, calls[i]? = some call → i ≤ ws.length ∧ request.Due i call.table call.type ∧
    call.view = request.viewAfter (ws.take i)

theorem Regular.concat {calls : List CreateCall} (h : Regular request ws calls)
    (len : calls.length = ws.length) {call : CreateCall}
    (due : request.Due ws.length call.table call.type) (view : call.view = request.viewAfter ws) :
    Regular request ws (calls ++ [call]) := by
  intro i c hc
  rw [List.getElem?_append] at hc
  split at hc
  · exact h i c hc
  · next beyond =>
    obtain ⟨bound, rfl⟩ := List.getElem?_eq_some_iff.1 hc
    rw [List.length_singleton] at bound
    obtain rfl : i = ws.length := by omega
    simp only [List.getElem_singleton, List.take_length]
    exact ⟨Nat.le_refl _, due, view⟩

theorem Regular.more {calls : List CreateCall} (h : Regular request ws calls) (w : CreatedWidget) :
    Regular request (ws ++ [w]) calls := by
  intro i c hc
  obtain ⟨bound, due, view⟩ := h i c hc
  rw [List.take_append_of_le_length bound, List.length_append]
  exact ⟨Nat.le_add_right_of_le bound, due, view⟩

namespace Creating

theorem answers (h : Creating request ws es) : (creations es).map (·.answer) = ws.map .ok := by
  induction h with
  | start => rfl
  | read _ read ih => rw [creations_read read, ih]
  | create _ _ ih =>
    rw [creations_concat, List.map_append, List.map_append, ih]
    rfl

theorem length (h : Creating request ws es) : (creations es).length = ws.length := by
  have same := congrArg List.length h.answers
  rwa [List.length_map, List.length_map] at same

theorem regular (h : Creating request ws es) : Regular request ws (creations es) := by
  induction h with
  | start => exact fun i call none => nomatch none
  | read _ read ih => rwa [creations_read read]
  | create before due ih =>
    rw [creations_concat]
    exact (ih.concat before.length due rfl).more _

theorem not_isLast (h : Creating request ws es) : ∀ e ∈ es, e.isLast = false := by
  induction h with
  | start => exact fun e none => nomatch none
  | @read _ _ e _ read ih =>
    refine List.forall_mem_append.2 ⟨ih, List.forall_mem_singleton.2 ?_⟩
    cases e <;> first | rfl | cases read
  | create _ _ ih => exact List.forall_mem_append.2 ⟨ih, List.forall_mem_singleton.2 rfl⟩

/-- A call that nothing may follow comes after the creations. -/
theorem last (h : Creating request ws es) {e e' : Event α} {before after : List (Event α)}
    (split : es ++ [e] = before ++ e' :: after) (last : e'.isLast = true) :
    after = [] ∧ before = es ∧ e' = e := by
  rcases List.eq_nil_or_concat after with rfl | ⟨rest, e'', rfl⟩
  · obtain ⟨rfl, same⟩ := List.append_inj' split rfl
    exact ⟨rfl, rfl, (List.singleton_inj.1 same).symm⟩
  · rw [List.concat_eq_append, ← List.cons_append, ← List.append_assoc] at split
    obtain ⟨rfl, -⟩ := List.append_inj' split rfl
    have early := h.not_isLast e' (by simp)
    rw [last] at early
    cases early

end Creating

/-! ## Endings -/

variable [Scalar α]

/-- The bundle `ms` is due after the calls `es`: every new pane is there, as `ws`, and every linked
pane is sent the tuple to which its link was resolved. -/
def LayoutRequest.Completes (request : LayoutRequest α) (config : CompilerConfig)
    (ws : List CreatedWidget) (es : List (Event α)) (ms : List (Mutation α)) : Prop :=
  ∃ t ss view, request.layout = some t ∧ ws.length = t.newPanes.length ∧
    (t.newPanes.length ≤ UInt32.size → ss = Pane.assignedSections t.panes (ws.map (·.id))) ∧
    request.viewAfter ws = some view ∧
    t.IsBundle (fun p tuple => ∃ l, p.link = some l ∧
      l.Resolved (.ofConfig request.tables config) t ss (ws.map (·.id)) es p tuple) ss view ms

/-- The trace of a run that has ended. -/
inductive Played (request : LayoutRequest α) (config : CompilerConfig) : List (Event α) → Prop
  | stopped {ws : List CreatedWidget} {es : List (Event α)} :
    Creating request ws es → Played request config es
  | refused {ws : List CreatedWidget} {es : List (Event α)} {table : TableRef} {type : WidgetType}
    {f : Fault} : Creating request ws es → request.Due ws.length table type →
    Played request config (es ++ [.createWidget ⟨table, type, request.viewAfter ws, .error f⟩])
  | sent {ws : List CreatedWidget} {es : List (Event α)} {ms : List (Mutation α)}
    {answer : Except Fault Unit} : Creating request ws es → request.Completes config ws es ms →
    Played request config (es ++ [.applyMutations ms answer])

/-- What the trace of a run for `request` shows. -/
structure Protocol (request : LayoutRequest α) (config : CompilerConfig) (es : List (Event α)) :
    Prop where
  due : ∀ i call, (creations es)[i]? = some call → request.Due i call.table call.type
  givenView : ∀ v, request.view = some v → ∀ call ∈ creations es, call.view = some v
  firstView : request.view = none → ∀ call, (creations es)[0]? = some call → call.view = none
  laterViews : request.view = none → ∀ i call, (creations es)[i + 1]? = some call →
    ∃ first w, (creations es)[0]? = some first ∧ first.answer = .ok w ∧ call.view = some w.view
  /-- A creation that fails is the last call. -/
  refusal : ∀ before call f after, es = before ++ .createWidget call :: after →
    call.answer = .error f → after = []
  /-- The bundle is the last call, and follows all creations. -/
  bundle : ∀ before ms answer after, es = before ++ .applyMutations ms answer :: after →
    after = [] ∧ ∃ ws, (creations before).map (·.answer) = ws.map .ok ∧
      request.Completes config ws before ms

namespace Played

variable {config : CompilerConfig}

theorem regular (h : Played request config es) : ∃ ws, Regular request ws (creations es) ∧
    ws.map .ok <+: (creations es).map (·.answer) := by
  cases h with
  | @stopped ws _ made => exact ⟨ws, made.regular, made.answers ▸ List.prefix_rfl⟩
  | @refused ws _ _ _ _ made due =>
    refine ⟨ws, ?_, ?_⟩ <;> rw [creations_concat]
    · exact made.regular.concat made.length due rfl
    · rw [List.map_append, made.answers]
      exact List.prefix_append _ _
  | @sent ws es ms answer made =>
    have same : creations (es ++ [.applyMutations ms answer]) = creations es :=
      (creations_concat es _).trans (List.append_nil _)
    rw [same]
    exact ⟨ws, made.regular, made.answers ▸ List.prefix_rfl⟩

theorem refusal (h : Played request config es) {call : CreateCall} {f : Fault}
    {before after : List (Event α)} (split : es = before ++ .createWidget call :: after)
    (refused : call.answer = .error f) : after = [] := by
  have last : (Event.createWidget call : Event α).isLast = true := by
    rw [Event.isLast, refused]
    rfl
  cases h with
  | stopped made =>
    have early := made.not_isLast (.createWidget call) (by simp [split])
    rw [last] at early
    cases early
  | refused made => exact (made.last split last).1
  | sent made => exact (made.last split last).1

theorem bundle (h : Played request config es) {ms : List (Mutation α)} {answer : Except Fault Unit}
    {before after : List (Event α)} (split : es = before ++ .applyMutations ms answer :: after) :
    after = [] ∧ ∃ ws, (creations before).map (·.answer) = ws.map .ok ∧
      request.Completes config ws before ms := by
  cases h with
  | stopped made => cases made.not_isLast (.applyMutations ms answer) (by simp [split])
  | refused made => cases (made.last split rfl).2.2
  | sent made complete =>
    obtain ⟨rfl, rfl, same⟩ := made.last split rfl
    obtain ⟨rfl, rfl⟩ := Event.applyMutations.inj same
    exact ⟨rfl, _, made.answers, complete⟩

theorem protocol (h : Played request config es) : Protocol request config es := by
  obtain ⟨ws, regular, answers⟩ := h.regular
  refine ⟨fun i call hc => (regular i call hc).2.1, ?_, ?_, ?_,
    fun _ _ _ _ => h.refusal, fun _ _ _ _ => h.bundle⟩
  · intro v given call hc
    obtain ⟨i, hi⟩ := List.mem_iff_getElem?.1 hc
    rw [(regular i call hi).2.2, LayoutRequest.viewAfter, given]
    rfl
  · intro unset call hc
    rw [(regular 0 call hc).2.2, LayoutRequest.viewAfter, unset]
    rfl
  · intro unset i call hc
    obtain ⟨bound, -, view⟩ := regular (i + 1) call hc
    cases ws with
    | nil => cases bound
    | cons w ws =>
      obtain ⟨rest, split⟩ := answers
      have head := congrArg List.head? split
      rw [List.map_cons, List.cons_append, List.head?_cons, List.head?_map] at head
      obtain ⟨first, hfirst, answer⟩ := Option.map_eq_some_iff.1 head.symm
      rw [LayoutRequest.viewAfter, unset] at view
      exact ⟨first, w, by rw [← List.head?_eq_getElem?, hfirst], answer, view⟩

end Played

/-! ## The run -/

namespace Compile

variable (client : Client α σ) {config : CompilerConfig} {rules : LinkRules} {plan : Plan α}
  {s : Surroundings}

omit [Scalar α]

/-- How far a run with a trace has got: the creations were answered with `ws`. -/
structure Made (request : LayoutRequest α) (ws : List CreatedWidget) (p : Progress)
    (st : Schooled (Traced α σ)) : Prop where
  history : Creating request ws st.trace
  view : p.view = request.viewAfter ws
  created : p.created.map (·.id) = ws.map (·.id)

theorem quiet_plays {β : Type} {x : LinkRun (Traced α σ) β} (quiet : x.Quiet)
    {st : Schooled (Traced α σ)} (h : Creating request ws st.trace) :
    x.Yields st (fun _ st' => Creating request ws st'.trace)
      fun _ st' => Creating request ws st'.trace := by
  obtain ⟨es, trace, reads⟩ := quiet st
  rcases run : x.start st with ⟨_ | b, t⟩ <;> rw [run] at trace
  · exact .of_error run (trace ▸ h.reads reads)
  · exact .of_ok run (trace ▸ h.reads reads)

theorem create_plays [Scalar α] (c : Creation) {p : Progress} {st : Schooled (Traced α σ)}
    (h : Made request ws p st) (due : request.Due ws.length c.table c.type) :
    (create client.traced c p).Yields st (fun p' st' => ∃ w, Made request (ws ++ [w]) p' st')
      fun _ st' => Played request config st'.trace := by
  unfold create
  rw [Run.yields_bind, Run.yields_adapt, LinkRun.yields_ask]
  simp only [Client.traced, Client.note, h.view]
  rcases client.createWidget c.table c.type (request.viewAfter ws) st.engine.1 with ⟨f | w, e⟩
  · exact .refused h.history due
  · refine ⟨w, h.history.create due, ?_, ?_⟩
    · exact (request.viewAfter_concat ws w).symm
    · simp [h.created, WidgetInfo.create]

/-- Resolving links creates nothing. -/
theorem Made.stay [Scalar α] {p : Progress} {st : Schooled (Traced α σ)}
    (h : Made request ws p st) {x : LinkRun (Traced α σ) Progress} (quiet : x.Quiet)
    (same : x.Yields st (fun p' _ => p'.view = p.view ∧ p'.created = p.created) fun _ _ => True) :
    x.Yields st (fun p' st' => Made request ws p' st') fun _ st' => Played request config st'.trace := by
  refine ((quiet_plays quiet h.history).and same).mono ?_ fun _ _ refused => .stopped refused.1
  rintro p' st' ⟨history, view, created⟩
  exact ⟨history, view.trans h.view, created ▸ h.created⟩

theorem resolveOrDefer_plays [Scalar α] (ls : List PendingLink) {p : Progress}
    {st : Schooled (Traced α σ)} (h : Made request ws p st) :
    (resolveOrDefer client.traced rules plan s ls p).Yields st
      (fun p' st' => Made request ws p' st') fun _ st' => Played request config st'.trace := by
  refine h.stay ((quiet_reading client).resolveOrDefer rules plan s ls p) ?_
  refine (resolveOrDefer_passes (r := p.registry) ls rfl st).mono ?_ fun _ _ => id
  rintro p' st' ⟨-, same, -⟩
  rw [same]
  exact ⟨rfl, rfl⟩

theorem resolveDrained_plays [Scalar α] (ls : List PendingLink) {p : Progress}
    {st : Schooled (Traced α σ)} (h : Made request ws p st) :
    (resolveDrained client.traced rules plan s ls p).Yields st
      (fun p' st' => Made request ws p' st') fun _ st' => Played request config st'.trace := by
  refine h.stay ((quiet_reading client).resolveDrained rules plan s LinkRun.quiet_closed ls p) ?_
  refine (resolveDrained_passes (r := p.registry) ls rfl st).mono ?_ fun _ _ => id
  rintro p' st' ⟨-, same, -⟩
  rw [same]
  exact ⟨rfl, rfl⟩

theorem createAll_plays [Scalar α] (cs : List Creation) {p : Progress}
    {st : Schooled (Traced α σ)} (h : Made request ws p st)
    (due : ∀ i c, cs[i]? = some c → request.Due (ws.length + i) c.table c.type) :
    (createAll client.traced rules plan s cs p).Yields st
      (fun p' st' => ∃ ws', ws'.length = ws.length + cs.length ∧ Made request ws' p' st')
      fun _ st' => Played request config st'.trace := by
  induction cs generalizing ws p st with
  | nil => exact ⟨ws, rfl, h⟩
  | cons c cs ih =>
    unfold createAll
    rw [Run.yields_bind]
    refine (create_plays client c h (due 0 c rfl)).mono ?_ fun _ _ => id
    rintro p₁ st₁ ⟨w, h₁⟩
    dsimp only
    have drained : Made request (ws ++ [w]) { p₁ with registry := p₁.registry.drain.2 } st₁ :=
      ⟨h₁.history, h₁.view, h₁.created⟩
    rw [Run.yields_bind]
    refine (resolveDrained_plays client _ drained).mono ?_ fun _ _ => id
    rintro p₂ st₂ h₂
    refine (ih h₂ fun i c' hc' => ?_).mono ?_ fun _ _ => id
    · rw [List.length_append, List.length_singleton, Nat.add_assoc, Nat.add_comm 1]
      exact due (i + 1) c' hc'
    · rintro p' st' ⟨ws', len, h'⟩
      rw [List.length_append, List.length_singleton] at len
      exact ⟨ws', by rw [len, List.length_cons]; omega, h'⟩

variable [Scalar α]

theorem due_of_draws {t : Layout α} (layout : request.layout = some t)
    (draws : plan.Draws request.tables t) {i : Nat} {c : Creation}
    (hc : plan.creations[i]? = some c) : request.Due i c.table c.type := by
  rw [draws.creations] at hc
  obtain ⟨name, info, new, found⟩ := Slot.number_creations draws.mapped hc
  exact ⟨t, name, info, layout, new, found⟩

theorem populate_plays (config : CompilerConfig) (request : LayoutRequest α)
    (st : Schooled (Traced α σ)) (start : st.trace = []) :
    (populate client.traced config request).Yields st
      (fun x st' => ∃ ws, ws.length = x.1.creations.length ∧ Made request ws x.2.2 st')
      fun _ st' => Played request config st'.trace := by
  have reading := quiet_reading client
  have history : Creating request [] st.trace := start ▸ .start
  unfold populate
  rw [Run.yields_bind, yields_liftExcept]
  cases hm : Plan.make request.layout request.tables with
  | error e => exact .stopped history
  | ok plan =>
    obtain ⟨t, layout, -, draws⟩ := Plan.make_ok hm
    dsimp only
    split
    · rw [Run.yields_bind]
      exact .stopped history
    rw [Run.yields_bind]
    refine (quiet_plays (reading.survey _ plan) history).mono ?_ fun _ _ => .stopped
    rintro ⟨r, s⟩ st₁ history₁
    dsimp only
    rw [Run.yields_bind]
    have made : Made request [] ⟨r, request.view, [], ∅⟩ st₁ := by
      refine ⟨history₁, ?_, rfl⟩
      unfold LayoutRequest.viewAfter
      cases request.view <;> rfl
    refine (resolveOrDefer_plays client plan.links made).mono ?_ fun _ _ => id
    rintro p₁ st₂ made₁
    rw [Run.yields_bind]
    refine (createAll_plays client plan.creations made₁ fun i c hc => ?_).mono ?_ fun _ _ => id
    · rw [List.length_nil, Nat.zero_add]
      exact due_of_draws layout draws hc
    · rintro p st' ⟨ws, len, h⟩
      exact ⟨ws, by simpa using len, h⟩

theorem conclude_plays (id : Uuid) {t : Layout α} {r : Registry}
    {xs : List (PlaceholderId × SectionId)} {p : Progress} {st : Schooled (Traced α σ)}
    (h : Populated client.traced config request t plan r s xs p st)
    (all : ws.length = plan.creations.length) (made : Made request ws p st) (backed : st.Backed)
    (shown : s.Shown st.trace plan.panes) :
    (conclude client.traced id plan s p).Yields st
      (fun o st' => Played request config st'.trace ∧
        st'.trace.getLast? = some (.applyMutations o.mutations (.ok ())))
      fun _ st' => Played request config st'.trace := by
  have complete {view ss ms} (sends : Sends request t p view ss ms) :
      request.Completes config ws st.trace ms := by
    refine ⟨t, ss, view, h.layout, ?_, fun few => ?_, ?_, sends.bundle.mono ?_⟩
    · rw [all, h.draws.creations_length]
    · have same := sends.sections.symm.trans (h.sections_eq few)
      rw [made.created] at same
      exact (List.map_inj_right fun _ _ => Option.some.inj).1 same
    · rw [← made.view, sends.opened]
    · rintro pane tuple ⟨i, hp, ht⟩
      obtain ⟨pane', l, hp', link, resolved⟩ := h.resolved_of_tuple backed shown sends.sections ht
      obtain rfl := Option.some.inj (hp.symm.trans hp')
      exact ⟨l, link, made.created ▸ resolved⟩
  refine h.conclude_yields id (fun _ => .stopped made.history) (fun _ => .stopped made.history) ?_ ?_
  · intro view ss ms f sends answer
    rw [client.trace_applyMutations]
    exact .sent made.history (complete sends)
  · rintro view ss ms o sends answer rfl
    rw [client.trace_applyMutations, answer]
    exact ⟨.sent made.history (complete sends), List.getLast?_concat⟩

end Compile

open Compile

theorem compileRun_plays (client : Client α σ) (config : CompilerConfig) (id : Uuid)
    (request : LayoutRequest α) (s : σ) :
    (compileRun client.traced config id request).Yields (.fresh (s, []))
      (fun o st => Played request config st.trace ∧
        st.trace.getLast? = some (.applyMutations o.mutations (.ok ())))
      fun _ st => Played request config st.trace := by
  rw [compileRun_eq, Run.yields_bind]
  have played := populate_plays client config request (.fresh (s, [])) rfl
  have stands := populate_stands client.traced config request (.fresh (s, []))
  have shown := (populate_backed client config request s).and
    (populate_shown client config request (.fresh (s, [])))
  refine ((played.and stands).and shown).mono ?_ fun _ _ stops => stops.1.1
  rintro ⟨plan, s, p⟩ st ⟨⟨⟨ws, all, made⟩, t, r, xs, populated⟩, backed, shown⟩
  exact conclude_plays client id populated all made backed shown

/-- On every client, whatever it answers: the trace of a compilation keeps to the protocol, and a
compilation that succeeds ends with its bundle. -/
theorem compile_protocol (client : Client α σ) (config : CompilerConfig) (id : Uuid)
    (request : LayoutRequest α) (s : σ) : ∃ es, compile client.traced config id request (s, []) =
      ((compile client config id request s).1, (compile client config id request s).2, es) ∧
    Protocol request config es ∧
    ∀ o, (compile client config id request s).1 = .ok o →
      es.getLast? = some (.applyMutations o.mutations (.ok ())) := by
  obtain ⟨es, same⟩ := compile_traced client config id request s
  refine ⟨es, same, ?_⟩
  have played := compileRun_plays client config id request s
  rcases run : (compileRun client.traced config id request).start (.fresh (s, [])) with ⟨res, st⟩
  have ends : compile client.traced config id request (s, []) = (res, st.engine) := by
    rw [compile, run]
  obtain ⟨result, engine⟩ := Prod.mk.inj (same.symm.trans ends)
  have trace : st.trace = es := by rw [Schooled.trace, ← engine]
  rw [result]
  cases res with
  | error e =>
    refine ⟨trace ▸ (played.error run).protocol, ?_⟩
    rintro _ ⟨⟩
  | ok o =>
    obtain ⟨history, bundle⟩ := played.ok run
    refine ⟨trace ▸ history.protocol, ?_⟩
    rintro _ ⟨⟩
    exact trace ▸ bundle

end PaneLayout
