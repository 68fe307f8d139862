import PaneLayout.Proofs.Inventory
import PaneLayout.Proofs.Keeping

set_option autoImplicit false

/-!
# What a failed compilation leaves

Up to its bundle a compilation only puts new widgets beside what a document holds. A bundle that is
refused has been applied up to the mutation that is refused, and one that is accepted is not followed
by an error. So the trace of a compilation that fails says what it leaves.
-/

namespace PaneLayout

variable {α σ β : Type}

/-! ## New widgets beside old ones -/

namespace Document

/-- The document `e` is `d` with the widgets `ws` beside what was there. -/
structure Joined (d : Document α) (ws : List WidgetInfo) (e : Document α) : Prop where
  distinct : (ws.map (·.id)).Nodup
  new : ∀ w ∈ ws, d.widget? w.id = none
  widgets : ∀ id w, e.widget? id = some w ↔ d.widget? id = some w ∨ w ∈ ws ∧ w.id = id
  /-- Every widget is on the page where it was. -/
  views : ∀ id, d.widgets.contains id = true → e.widgetViews.get? id = d.widgetViews.get? id
  layouts : ∀ v n, d.layout? v = some n → e.layout? v = some n
  pages : ∀ v, d.pages.contains v = true → e.pages.contains v = true
  tables : e.tables = d.tables

/-- As it stands while widgets are created: the next number is beyond all that are there. -/
structure Joining (d : Document α) (ws : List WidgetInfo) (e : Document α) : Prop
    extends d.Joined ws e where
  numbered : e.Numbered

variable {d e e' : Document α} {ws : List WidgetInfo}

theorem joining_nil (numbered : d.Numbered) : d.Joining [] d where
  distinct := List.nodup_nil
  new := fun w none => nomatch none
  widgets := fun id w => by simp
  views := fun _ _ => rfl
  layouts := fun _ _ => id
  pages := fun _ => id
  tables := rfl
  numbered := numbered

theorem Joining.read (h : d.Joining ws e) (read : e.OnlyRead e') : d.Joining ws e' := by
  unfold OnlyRead at read
  rw [read]
  exact { h with }

/-- A section that is not there belongs to neither the old widgets nor the new ones. -/
theorem Joined.unused (h : d.Joined ws e) {id : SectionId} (unused : e.widget? id = none) :
    d.widget? id = none ∧ ∀ w ∈ ws, w.id ≠ id := by
  constructor
  · cases old : d.widget? id with
    | none => rfl
    | some w => exact ((h.widgets id w).2 (.inl old)).symm.trans unused
  · intro w hw own
    exact Option.some_ne_none w (((h.widgets id w).2 (.inr ⟨hw, own⟩)).symm.trans unused)

theorem Joining.placed (h : d.Joining ws e) {view : Option ViewRef} {c : Creation}
    (can : e.Creatable view c) : d.Joining (ws ++ [.create ⟨e.lastSection + 1⟩ c.table c.type])
      (e.placed view c).2 := by
  obtain ⟨absent, apart⟩ := h.unused (h.numbered.widget?_next can.room)
  have numbered := numbered_of_placed h.numbered can
  have shown : ∀ v n, d.layout? v = some n → (e.placed view c).2.layout? v = some n :=
    fun v n hv => layout?_placed (h.layouts v n hv) c
  rw [placed_snd] at numbered shown ⊢
  refine ⟨⟨?distinct, ?new, ?widgets, ?views, shown, ?pages, h.tables⟩, numbered⟩
  case pages => exact fun v hv => contains_shown.2 (.inr (h.pages v hv))
  case new => exact List.forall_mem_append.2 ⟨h.new, List.forall_mem_singleton.2 absent⟩
  case distinct =>
    rw [List.map_append, List.nodup_append]
    refine ⟨h.distinct, List.nodup_singleton _, ?_⟩
    rintro id before _ now rfl
    obtain ⟨w, hw, own⟩ := List.mem_map.1 before
    exact apart w hw (own.trans (List.mem_singleton.1 now))
  case widgets =>
    intro id w
    change (e.widgets.insert _ _).get? id = some w ↔ _
    rw [SortedMap.get?_insert, List.mem_append, List.mem_singleton]
    split
    · next same =>
      rw [same, absent]
      constructor
      · intro now
        obtain rfl := Option.some.inj now
        exact .inr ⟨.inr rfl, rfl⟩
      · rintro (none | ⟨before | rfl, own⟩)
        · cases none
        · exact absurd own (apart w before)
        · rfl
    · next ne =>
      refine (h.widgets id w).trans (or_congr_right (and_congr_left fun own => ?_))
      refine (or_iff_left ?_).symm
      rintro rfl
      exact ne own.symm
  case views =>
    intro id there
    have other : id ≠ ⟨e.lastSection + 1⟩ := by
      rintro rfl
      obtain ⟨w, hw⟩ := Option.isSome_iff_exists.1 there
      exact Option.some_ne_none w (hw.symm.trans absent)
    exact (SortedMap.get?_insert_of_ne _ _ other).trans (h.views id there)

/-- A creation that fails leaves all as it is, another one is joined to it. -/
theorem Joining.create (h : d.Joining ws e) (table : TableRef) (type : WidgetType)
    (view : Option ViewRef) {made : List WidgetInfo}
    (answer : made = ws ++ (CreateCall.made?
      ⟨table, type, view, (createWidget table type view e).1⟩).toList) :
    d.Joining made (createWidget table type view e).2 := by
  let c : Creation := ⟨0, ⟨0⟩, table, type⟩
  by_cases can : e.Creatable view c
  · have run := createWidget_of_creatable can
    dsimp only [c] at run
    rw [run, placed_fst] at answer
    obtain rfl : made = ws ++ [.create ⟨e.lastSection + 1⟩ table type] := answer
    rw [run]
    exact h.placed can
  · obtain ⟨f, spent, run⟩ := createWidget_of_not_creatable can
    dsimp only [c] at run
    rw [run] at answer ⊢
    obtain rfl : made = ws := answer.trans (List.append_nil ws)
    exact { h with }

end Document

/-! ## Traces without a bundle -/

/-- No bundle has been sent. -/
def Unsent (es : List (Event α)) : Prop := ∀ ms answer, Event.applyMutations ms answer ∉ es

theorem Unsent.left {es es' : List (Event α)} (h : Unsent (es ++ es')) : Unsent es :=
  fun ms answer sent => h ms answer (List.mem_append_left _ sent)

theorem Unsent.append {es es' : List (Event α)} (h : Unsent es) (h' : Unsent es') :
    Unsent (es ++ es') := by
  intro ms answer sent
  exact (List.mem_append.1 sent).elim (h ms answer) (h' ms answer)

theorem unsent_of_reads {rs : List (Event α)} (reads : ∀ e ∈ rs, e.isWrite = false) :
    Unsent rs := by
  intro ms answer sent
  cases reads _ sent

theorem unsent_create (call : CreateCall) : Unsent [(Event.createWidget call : Event α)] := by
  intro ms answer sent
  cases List.mem_singleton.1 sent

theorem LinkRun.Quiet.keeps_unsent {x : LinkRun (Traced α σ) β} (quiet : x.Quiet) :
    x.Keeps fun s => Unsent s.2 := by
  intro st unsent
  obtain ⟨rs, trace, reads⟩ := quiet st
  change Unsent (x.start st).2.trace
  rw [trace]
  exact unsent.append (unsent_of_reads reads)

/-! ## Documents with a trace -/

namespace Document

variable {d : Document α}

/-- What the trace says of the document: before a bundle there are the widgets that it shows beside
what was there, and a bundle is applied to that. -/
structure Told (d : Document α) (s : Traced α (Document α)) : Prop where
  unsent : Unsent s.2 → d.Joining (madeIn s.2) s.1
  sent : ∀ before ms answer, s.2 = before ++ [.applyMutations ms answer] → Unsent before →
    ∃ e, d.Joining (madeIn before) e ∧ applyMutations ms e = (answer, s.1)

theorem told_start (numbered : d.Numbered) : d.Told (d, []) where
  unsent _ := joining_nil numbered
  sent before ms answer split := by simp at split

theorem Told.read {s : Traced α (Document α)} (h : d.Told s) {e : Document α} {ev : Event α}
    (only : s.1.OnlyRead e) (read : ev.isWrite = false) : d.Told (e, s.2 ++ [ev]) where
  unsent unsent := by
    have same : madeIn (s.2 ++ [ev]) = madeIn s.2 :=
      madeIn_reads s.2 (List.forall_mem_singleton.2 read)
    dsimp only
    rw [same]
    exact (h.unsent unsent.left).read only
  sent before ms answer split := by
    obtain ⟨-, same⟩ := List.append_inj' split rfl
    rw [List.singleton_inj.1 same] at read
    cases read

theorem keeps_told (d : Document α) : Client.Keeps d.Told (client : Client α (Document α)).traced where
  createWidget t type view s h := {
    unsent := fun unsent => (h.unsent unsent.left).create t type view (madeIn_concat s.2 _)
    sent := fun before ms answer split => by
      obtain ⟨-, same⟩ := List.append_inj' split rfl
      cases List.singleton_inj.1 same }
  applyMutations ms s h := {
    unsent := fun unsent => absurd (List.mem_append_right _ List.mem_cons_self) (unsent ms _)
    sent := fun before ms' answer split unsent => by
      obtain ⟨rfl, same⟩ := List.append_inj' split rfl
      obtain ⟨rfl, rfl⟩ := Event.applyMutations.inj (List.singleton_inj.1 same)
      exact ⟨s.1, h.unsent unsent, rfl⟩ }
  fetchWidget id s h := h.read (.refl s.1) rfl
  listColumns t s h := h.read rfl rfl
  summarySource t s h := h.read (.refl s.1) rfl

end Document

/-! ## Where a run fails -/

/-- The error comes before any bundle, or says why the bundle was refused. -/
def CompileError.Explains (err : CompileError) (es : List (Event α)) : Prop :=
  Unsent es ∨ ∃ before ms f, es = before ++ [.applyMutations ms (.error f)] ∧ Unsent before ∧
    err = .collaboratorFailure (.applyMutations f.index? ((f.index?.bind (ms[·]?)).map (·.kind)))
      f.message (madeIn before)

namespace Compile

variable (client : Client α σ)

theorem unsent_populating : Populating
    (fun {β} (x _ : LinkRun (Traced α σ) β) => x.Keeps fun s => Unsent s.2) client.traced
    client.traced where
  toClosed := LinkRun.keeps_closed
  columns t := ((quiet_reading client).columns t).keeps_unsent
  lineage t := ((quiet_reading client).lineage t).keeps_unsent
  fetch id := ((quiet_reading client).fetch id).keeps_unsent
  make _ _ _ _ := LinkRun.keeps_ofReply
    (fun _ unsent => unsent.append (unsent_create _)) _

variable [Scalar α]

theorem conclude_explains {config : CompilerConfig} {request : LayoutRequest α} (id : Uuid)
    {t : Layout α} {plan : Plan α} {r : Registry} {s : Surroundings}
    {xs : List (PlaceholderId × SectionId)} {p : Progress} {st : Schooled (Traced α σ)}
    (h : Populated client.traced config request t plan r s xs p st)
    (all : p.created = madeIn st.trace) (unsent : Unsent st.trace) :
    (conclude client.traced id plan s p).Yields st (fun _ _ => True)
      fun err st' => err.Explains st'.trace := by
  refine h.conclude_yields id (fun _ => .inl unsent) (fun _ => .inl unsent) ?_
    fun _ _ _ _ _ _ _ => trivial
  intro view ss ms f sends answer
  rw [client.trace_applyMutations, answer]
  exact .inr ⟨st.trace, ms, f, rfl, unsent, by rw [all]⟩

theorem compileRun_explains (config : CompilerConfig) (id : Uuid) (request : LayoutRequest α)
    (s : σ) : (compileRun client.traced config id request).Yields (.fresh (s, [])) (fun _ _ => True)
      fun err st => err.Explains st.trace := by
  rw [compileRun_eq, Run.yields_bind]
  have start : Unsent (Schooled.fresh ((s, []) : Traced α σ)).trace :=
    fun _ _ none => nomatch none
  have unsent := (unsent_populating client).populate config request (.fresh (s, [])) start
  have blank : madeIn (Schooled.fresh ((s, []) : Traced α σ)).trace = [] := rfl
  have all := populate_accounts client config request blank
  have stands := populate_stands client.traced config request (.fresh (s, []))
  rcases run : (populate client.traced config request).start (.fresh (s, [])) with
    ⟨err | ⟨plan, s, p⟩, st⟩ <;> rw [run] at unsent
  · exact .of_error run (.inl unsent)
  · obtain ⟨t, r, xs, populated⟩ := stands.ok run
    exact .of_ok run (conclude_explains client id populated (all.ok run) unsent)

end Compile

open Compile in
theorem explains_of_error [Scalar α] {client : Client α σ} {config : CompilerConfig} {id : Uuid}
    {request : LayoutRequest α} {s s' : σ} {err : CompileError} {es : List (Event α)}
    (run : compile client.traced config id request (s, []) = (.error err, s', es)) :
    err.Explains es := by
  have both := compileRun_explains client config id request s
  unfold compile at run
  rcases ends : (compileRun client.traced config id request).start (.fresh (s, [])) with ⟨res, st⟩
  rw [ends] at run
  obtain ⟨rfl, engine⟩ := Prod.mk.inj run
  have failed := both.error ends
  rwa [Schooled.trace, engine] at failed

open Document in
/-- A compilation that fails before its bundle leaves the document with its new widgets beside all
that was there. One that fails with its bundle, at position `k`, leaves that document with exactly
the first `k` mutations applied. It fails in no other way. -/
theorem compile_failed [Scalar α] {d d' : Document α} (past : d.Reachable) {config : CompilerConfig}
    {id : Uuid} {request : LayoutRequest α} {err : CompileError}
    (run : compile client config id request d = (.error err, d')) :
    ∃ es, compile client.traced config id request (d, []) = (.error err, d', es) ∧
    (d.lastSection.toNat + (madeIn es).length < UInt32.size →
      Unsent es ∧ d.Joined (madeIn es) d' ∨
      ∃ before ms k reason e, es = before ++ [.applyMutations ms (.error (.rejected k reason))] ∧
        Unsent before ∧ d.Joined (madeIn before) e ∧ k < ms.length ∧
        (ms.take k).foldlM applyOne e.bundling = .ok d' ∧
        err = .collaboratorFailure (.applyMutations (some k) (ms[k]?.map (·.kind)))
          (Fault.rejected k reason).message (madeIn before)) := by
  obtain ⟨es, traced⟩ := compile_traced client config id request d
  have told : d.Told _ := (keeps_told d).compile config id request (told_start past.numbered)
  rw [run] at traced
  rw [traced] at told
  refine ⟨es, traced, fun _ => ?_⟩
  rcases explains_of_error traced with unsent | ⟨before, ms, f, rfl, unsent, why⟩
  · exact .inl ⟨unsent, (told.unsent unsent).toJoined⟩
  · obtain ⟨e, joining, refused⟩ := told.sent before ms (.error f) rfl unsent
    obtain ⟨k, reason, rfl, bound, applied⟩ := applyMutations_error refused
    exact .inr ⟨before, ms, k, reason, e, rfl, unsent, joining.toJoined, bound, applied, why⟩

/-- The shop refuses the second mutation of the bundle, after two creations. -/
theorem compile_failed_rejected :
    let shop : Document Rat := { Document.shop with rejectMutationAt := some 1 }
    let request : LayoutRequest Rat :=
      ⟨some ⟨1⟩, Document.shop.tableMap, some Document.buyersLayout⟩
    ∃ err d', shop.Reachable ∧
      compile Document.client .standard ⟨0⟩ request shop = (.error err, d') ∧
      ∃ es, compile Document.client.traced .standard ⟨0⟩ request (shop, []) = (.error err, d', es) ∧
        (shop.lastSection.toNat + (madeIn es).length < UInt32.size ∧ (madeIn es).length = 2 ∧
          d'.applyCalls = 1) ∧
        (Unsent es ∧ shop.Joined (madeIn es) d' ∨
        ∃ before ms k reason e, es = before ++ [.applyMutations ms (.error (.rejected k reason))] ∧
          Unsent before ∧ shop.Joined (madeIn before) e ∧ k < ms.length ∧
          (ms.take k).foldlM Document.applyOne e.bundling = .ok d' ∧
          err = .collaboratorFailure (.applyMutations (some k) (ms[k]?.map (·.kind)))
            (Fault.rejected k reason).message (madeIn before)) := by
  intro shop request
  have past : shop.Reachable := .rejectMutationAt (some 1) Document.shop_reachable
  obtain ⟨err, d', run, -⟩ := exists_error_of_test (fun _ _ => true)
    (x := compile Document.client .standard ⟨0⟩ request shop) (by decide +kernel)
  obtain ⟨err', s, traced', found⟩ := exists_error_of_test
    (fun _ s => decide (shop.lastSection.toNat + (madeIn s.2).length < UInt32.size ∧
      (madeIn s.2).length = 2 ∧ s.1.applyCalls = 1))
    (x := compile Document.client.traced .standard ⟨0⟩ request (shop, [])) (by decide +kernel)
  obtain ⟨es, traced, left⟩ := compile_failed past run
  obtain ⟨-, rfl⟩ := Prod.mk.inj (traced'.symm.trans traced)
  have facts := of_decide_eq_true found
  exact ⟨err, d', past, run, es, traced, facts, left facts.1⟩

end PaneLayout
