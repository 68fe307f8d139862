import PaneLayout.Proofs.Twins

set_option autoImplicit false

/-!
# Sections are opaque

Two clients that differ in the sections they hand out, and in nothing else. A compilation calls
them alike, one call after the other, and ends alike, with the new sections of one run in the places
of those of the other. Numbers that the layout mentions must not be handed out: a link to such a
number would change its meaning.
-/

namespace PaneLayout

variable {α σ τ β : Type}

/-- No section of `ids` is handed out twice, and none is mentioned by the layout. -/
structure LayoutRequest.Unused (request : LayoutRequest α) (ids : List SectionId) : Prop where
  distinct : ids.Nodup
  unmentioned : ∀ n ∈ request.mentioned, n ∉ ids

instance (request : LayoutRequest α) (ids : List SectionId) : Decidable (request.Unused ids) :=
  decidable_of_iff (ids.Nodup ∧ ∀ n ∈ request.mentioned, n ∉ ids)
    ⟨fun h => ⟨h.1, h.2⟩, fun h => ⟨h.1, h.2⟩⟩

/-- Ends of a compilation that differ in the names of sections. -/
inductive EndsAlike (ρ : SectionId → SectionId) : Except CompileError (CompileOutcome α) →
    Except CompileError (CompileOutcome α) → Prop
  | failed (err : CompileError) : EndsAlike ρ (.error err) (.error (err.rename ρ))
  | succeeded {o o' : CompileOutcome α} : o'.id = o.id → o'.view = o.view →
    o'.layout = o.layout.rename ρ → o'.mutations = o.mutations.map (·.rename ρ) →
    o'.created = o.created.map ρ → EndsAlike ρ (.ok o) (.ok o')

/-! ## The bundle hands out nothing -/

def LinkRun.Calm (x : LinkRun (Traced α σ) β) : Prop :=
  ∀ st, newSections (x.start st).2.trace = newSections st.trace

theorem LinkRun.calm_closed : Closed fun {β} (x _ : LinkRun (Traced α σ) β) => x.Calm :=
  closed_of_preorder (R := fun st st' => newSections st'.trace = newSections st.trace)
    (fun _ => rfl) fun first rest => rest.trans first

namespace Compile

section
variable (client : Client α σ) (ms : List (Mutation α)) (created : List WidgetInfo)

theorem start_applyBundle_traced (st : Schooled (Traced α σ)) :
    (applyBundle client.traced ms created).start st =
      ((client.applyMutations ms st.engine.1).1.mapError fun f => .collaboratorFailure
        (.applyMutations f.index? ((f.index?.bind (ms[·]?)).map (·.kind))) f.message created,
        { st with engine := ((client.applyMutations ms st.engine.1).2,
          st.trace ++ [.applyMutations ms (client.applyMutations ms st.engine.1).1]) }) := by
  simp only [applyBundle, Run.start_ofReply, Client.traced, Client.note]
  cases (client.applyMutations ms st.engine.1).1 <;> rfl

theorem applyBundle_calm : (applyBundle client.traced ms created).Calm := by
  intro st
  rw [start_applyBundle_traced]
  exact (newSections_concat st.trace _).trans (List.append_nil _)

end

variable {R : List (SectionId × SectionId) → σ → τ → Prop} {ρ : SectionId → SectionId}
  {xs : List (SectionId × SectionId)} {st : Schooled (Traced α σ)} {st' : Schooled (Traced α τ)}
  {client : Client α σ} {client' : Client α τ}

/-- The bundles are alike, and so are the answers to them. -/
theorem applyBundle_twins (alike : client.Alike client' R) (h : Beside R (renameBy xs) xs st st')
    (ms : List (Mutation α)) (created : List WidgetInfo)
    (known : ∀ m ∈ ms, ∀ id ∈ m.sections, id ∈ xs.map (·.1) ∨ id ∉ xs.map (·.2)) :
    (applyBundle client.traced ms created).Pairs
      (applyBundle client'.traced (ms.map (·.rename (renameBy xs)))
        (created.map (·.rename (renameBy xs)))) st st'
      (fun _ _ u u' => u'.trace = u.trace.map (·.rename (renameBy xs))) (FailAlike (renameBy xs)) := by
  have answers := alike.apply h.engines ms known
  have run := start_applyBundle_traced client ms created st
  have run' := start_applyBundle_traced client' (ms.map (·.rename (renameBy xs)))
    (created.map (·.rename (renameBy xs))) st'
  rw [answers] at run'
  have calls (answer : Except Fault Unit) :
      st'.trace ++ [Event.applyMutations (ms.map (·.rename (renameBy xs))) answer] =
        (st.trace ++ [Event.applyMutations ms answer]).map (·.rename (renameBy xs)) := by
    rw [List.map_append, ← h.trace]
    rfl
  cases answer : (client.applyMutations ms st.engine.1).1 with
  | ok _ =>
    rw [answer] at run run'
    exact .ok run run' (calls _)
  | error f =>
    rw [answer] at run run'
    refine .error run run' ⟨?_, calls _⟩
    have kind : ((f.index?.bind ((ms.map (·.rename (renameBy xs)))[·]?)).map (·.kind)) =
        (f.index?.bind (ms[·]?)).map (·.kind) := by
      cases f.index? with
      | none => rfl
      | some i =>
        rw [Option.bind_some, Option.bind_some, List.getElem?_map, Option.map_map]
        exact Option.map_congr fun m _ => m.kind_rename _
    dsimp only
    rw [kind]
    rfl

variable [Scalar α] {request : LayoutRequest α}

section
variable {config : CompilerConfig} {t : Layout α} {plan : Plan α} {r : Registry} {s : Surroundings}
  {ys : List (PlaceholderId × SectionId)} {p p' : Progress}
  (populated : Populated client.traced config request t plan r s ys p st)
  (h : Twin R (renameBy xs) (· ∈ request.mentioned) plan xs p p' st st')
include populated h

theorem Twin.lookups {ss : List SectionId}
    (sections : (t.slots request.tables).map (fun slot => p.registry.lookup slot.ref) =
      ss.map some) : (t.slots request.tables).map (fun slot => p'.registry.lookup slot.ref) =
        (ss.map (renameBy xs)).map some := by
  have renamed : ∀ slot ∈ t.slots request.tables, p'.registry.lookup slot.ref =
      (p.registry.lookup slot.ref).map (renameBy xs) := fun slot hs =>
    h.registry.lookup (populated.panes_eq ▸ List.mem_map_of_mem hs)
  have looked := congrArg (List.map (Option.map (renameBy xs))) sections
  rw [List.map_map, List.map_map] at looked
  rw [List.map_congr_left renamed, List.map_map]
  exact looked

/-- Runs that stand alike come to the same page, bundle and widgets, up to the names. -/
theorem Twin.bundles (unused : ∀ n ∈ request.mentioned, n ∉ xs.map (·.2))
    (drained : p.registry.pending = []) (view : ViewRef) : ∃ page ms ws ws',
      (settledPlan plan p).nativeLayout = .ok page ∧
      (settledPlan plan p').nativeLayout = .ok (page.rename (renameBy xs)) ∧
      (settledPlan plan p).mutations view page p.tuples = .ok ms ∧
      (settledPlan plan p').mutations view (page.rename (renameBy xs))
        (p.tuples.mapValues (·.rename (renameBy xs))) = .ok (ms.map (·.rename (renameBy xs))) ∧
      finalWidgets (settledPlan plan p) s p plan.panes = .ok ws ∧
      finalWidgets (settledPlan plan p') s p' plan.panes = .ok ws' ∧
      ∀ m ∈ ms, ∀ id ∈ m.sections, id ∈ xs.map (·.1) ∨ id ∉ xs.map (·.2) := by
  obtain ⟨ss, sections⟩ := populated.sections
  have assigned := assigned_of_lookup populated.draws sections
  have assigned' := assigned_of_lookup (p := p') populated.draws (h.lookups populated sections)
  have index := index_lt populated.draws assigned
  have index' := index_lt populated.draws assigned'
  have len : t.panes.length = ss.length := by
    rw [← populated.draws.panes_length]
    exact assigned.length
  have owned := populated.owned drained len
  have owned' : ∀ i, (p.tuples.mapValues (·.rename (renameBy xs))).contains i = true →
      i < (ss.map (renameBy xs)).length := by
    intro i hi
    rw [SortedMap.contains, SortedMap.get?_mapValues, Option.isSome_map] at hi
    rw [List.length_map]
    exact owned i hi
  obtain ⟨page, hpage, leaves, shape⟩ := Plan.nativeLayout_eq assigned
  obtain ⟨page', hpage', leaves', shape'⟩ := Plan.nativeLayout_eq assigned'
  obtain rfl : page' = page.rename (renameBy xs) :=
    Native.eq_rename (shape'.trans shape.symm) (by rw [leaves', leaves])
  have hms := Plan.mutations_eq assigned view page owned index
  have hms' := Plan.mutations_eq assigned' view (page.rename (renameBy xs)) owned' index'
  change _ = Except.ok (plan.bundle ss view page p.tuples) at hms
  change _ = Except.ok (plan.bundle _ view _ _) at hms'
  rw [Plan.bundle_rename] at hms'
  obtain ⟨ws, hws⟩ := finalWidgets_total (s := s) (p := p) assigned index
  obtain ⟨ws', hws'⟩ := finalWidgets_total (s := s) (p := p') assigned' index'
  refine ⟨page, _, ws, ws', hpage, hpage', hms, hms', hws, hws', fun m hm id hid => ?_⟩
  have known : id ∈ p.registry.known := by
    rcases Plan.sections_bundle leaves hm hid with own | ⟨i, tuple, ht, rfl⟩
    · have looked := List.mem_map_of_mem (f := some) own
      rw [← sections] at looked
      obtain ⟨slot, hs, looked⟩ := List.mem_map.1 looked
      exact h.registry.mem_known_of_lookup (populated.panes_eq ▸ List.mem_map_of_mem hs) looked
    · exact h.sources i tuple ht
  exact (h.known id known).symm.imp_right (unused id)

theorem conclude_twins (alike : client.Alike client' R) (id : Uuid)
    (unused : ∀ n ∈ request.mentioned, n ∉ xs.map (·.2)) :
    (conclude client.traced id plan s p).Pairs (conclude client'.traced id plan s p') st st'
      (fun o o' u u' => EndsAlike (renameBy xs) (.ok o) (.ok o') ∧
        u'.trace = u.trace.map (·.rename (renameBy xs))) (FailAlike (renameBy xs)) := by
  unfold conclude
  rw [h.registry.pending, h.view, h.created, h.tuples]
  cases p.view with
  | none =>
    dsimp only
    split
    · exact .bind (.error rfl rfl ⟨rfl, h.trace⟩)
    · exact .error rfl rfl ⟨rfl, h.trace⟩
  | some view =>
    dsimp only
    split
    · exact .bind (.error rfl rfl ⟨rfl, h.trace⟩)
    next idle =>
    have drained : p.registry.pending = [] := by simpa using idle
    obtain ⟨page, ms, ws, ws', hpage, hpage', hms, hms', hws, hws', known⟩ :=
      h.bundles populated unused drained view
    rw [settledPlan] at hpage hms hpage' hms' hws hws'
    rw [hpage, hpage']
    refine Run.Pairs.bind (.ok rfl rfl ?_)
    rw [hms, hms']
    refine Run.Pairs.bind (.ok rfl rfl ?_)
    refine Run.Pairs.bind ((applyBundle_twins alike h.toBeside _ p.created known).mono ?_
      fun _ _ _ _ fails => fails)
    rintro _ _ u u' calls
    rw [hws, hws']
    refine .bind (.ok rfl rfl (.ok rfl rfl ⟨.succeeded rfl rfl rfl rfl ?_, calls⟩))
    rw [List.map_map, List.map_map]
    rfl

end

end Compile

/-! ## Whole runs -/

open Compile

theorem map_fst_zip_sublist (xs : List α) (ys : List β) : ((xs.zip ys).map (·.1)).Sublist xs := by
  induction xs generalizing ys with
  | nil => exact .slnil
  | cons x xs ih =>
    cases ys with
    | nil => exact List.nil_sublist _
    | cons y ys => exact (ih ys).cons_cons x

variable [Scalar α]

theorem conclude_calm (client : Client α σ) (id : Uuid) (plan : Plan α) (s : Surroundings)
    (p : Progress) : (conclude client.traced id plan s p).Calm :=
  conclude_closed LinkRun.calm_closed client.traced client.traced (applyBundle_calm client) id plan s p

theorem newSections_populate (client : Client α σ) (config : CompilerConfig) (id : Uuid)
    (request : LayoutRequest α) (st : Schooled (Traced α σ)) :
    newSections ((populate client.traced config request).start st).2.trace =
      newSections ((compileRun client.traced config id request).start st).2.trace := by
  rw [compileRun_eq, Run.start_bind]
  rcases run : (populate client.traced config request).start st with ⟨_ | x, t⟩
  · rfl
  · exact (conclude_calm client id x.1 x.2.1 x.2.2 t).symm

variable {R : List (SectionId × SectionId) → σ → τ → Prop} {client : Client α σ}
  {client' : Client α τ} {request : LayoutRequest α}

theorem compileRun_twins (alike : client.Alike client' R) {s : σ} {s' : τ} (start : R [] s s')
    (config : CompilerConfig) (id : Uuid) {ids ids' : List SectionId}
    (handed : newSections ((compileRun client.traced config id request).start
      (.fresh (s, []))).2.trace = ids)
    (handed' : newSections ((compileRun client'.traced config id request).start
      (.fresh (s', []))).2.trace = ids')
    (unused : request.Unused ids) (unused' : request.Unused ids') :
    (compileRun client.traced config id request).Pairs (compileRun client'.traced config id request)
      (.fresh (s, [])) (.fresh (s', []))
      (fun o o' u u' => EndsAlike (renameBy (ids.zip ids')) (.ok o) (.ok o') ∧
        u'.trace = u.trace.map (·.rename (renameBy (ids.zip ids'))))
      (FailAlike (renameBy (ids.zip ids'))) := by
  have firsts := map_fst_zip_sublist ids ids'
  have fixes : ∀ n ∈ request.mentioned, renameBy (ids.zip ids') n = n := fun n hn =>
    renameBy_of_notMem fun mem => unused.unmentioned n hn (firsts.subset mem)
  have apart : Apart (renameBy (ids.zip ids')) (· ∈ request.mentioned) ids ids' := {
    distinct := unused.distinct
    distinct' := unused'.distinct
    unfixed := fun n hn => ⟨unused.unmentioned n hn, unused'.unmentioned n hn⟩
    paired := fun x hx => renameBy_of_mem (unused.distinct.sublist firsts) hx }
  have beside : Beside R (renameBy (ids.zip ids')) [] (.fresh (s, []) : Schooled (Traced α σ))
      (.fresh (s', [])) := ⟨start, rfl, rfl, rfl, rfl, rfl⟩
  have before := (newSections_populate client config id request (.fresh (s, []))).trans handed
  have before' := (newSections_populate client' config id request (.fresh (s', []))).trans handed'
  have populated := populate_twins alike config fixes beside (by rw [before, before']; exact apart)
  have stands := populate_stands client.traced config request (.fresh (s, []))
  rw [compileRun_eq] at handed handed'
  rw [compileRun_eq, compileRun_eq]
  refine Run.Pairs.bind_of_end
    (C := fun u u' => newSections u.trace = ids ∧ newSections u'.trace = ids')
    ((populated.and stands (Run.yields_trivial _ _)).mono ?_ fun _ _ _ _ => And.left)
    ⟨handed, handed'⟩
  rintro ⟨plan, s, p⟩ ⟨_, _, p'⟩ u u' ⟨⟨rfl, rfl, xs, twin⟩, ⟨t, r, ys, populated⟩, -⟩ ⟨all, all'⟩
  dsimp only at twin populated all all' ⊢
  rw [conclude_calm] at all all'
  have pairs : xs = ids.zip ids' :=
    List.zip_of_prod (twin.handed.symm.trans all) (twin.handed'.symm.trans all')
  rw [← pairs] at twin ⊢
  refine conclude_twins populated twin alike id fun n hn mem => ?_
  rw [← twin.handed', all'] at mem
  exact unused'.unmentioned n hn mem

/-- Whatever sections two such clients hand out, as long as none is handed out twice or mentioned
by the layout: they are called alike and the runs end alike, up to the names of the new sections. -/
theorem compile_opaque (alike : client.Alike client' R) {s : σ} {s' : τ} (start : R [] s s')
    (config : CompilerConfig) (id : Uuid)
    {res res' : Except CompileError (CompileOutcome α)} {e : σ} {e' : τ} {es es' : List (Event α)}
    (run : compile client.traced config id request (s, []) = (res, e, es))
    (run' : compile client'.traced config id request (s', []) = (res', e', es'))
    (unused : request.Unused (newSections es)) (unused' : request.Unused (newSections es')) :
    es' = es.map (·.rename (renameBy ((newSections es).zip (newSections es')))) ∧
      EndsAlike (renameBy ((newSections es).zip (newSections es'))) res res' := by
  rcases hr : (compileRun client.traced config id request).start (.fresh (s, [])) with ⟨r, st⟩
  rcases hr' : (compileRun client'.traced config id request).start (.fresh (s', [])) with ⟨r', st'⟩
  rw [compile, hr] at run
  rw [compile, hr'] at run'
  obtain ⟨rfl, engine⟩ := Prod.mk.inj run
  obtain ⟨rfl, engine'⟩ := Prod.mk.inj run'
  have trace : st.trace = es := congrArg Prod.snd engine
  have trace' : st'.trace = es' := congrArg Prod.snd engine'
  have pairs := compileRun_twins alike start config id (by rw [hr, trace]) (by rw [hr', trace'])
    unused unused'
  cases pairs with
  | ok hx hy ends =>
    rw [hr] at hx
    rw [hr'] at hy
    obtain ⟨rfl, rfl⟩ := Prod.mk.inj hx
    obtain ⟨rfl, rfl⟩ := Prod.mk.inj hy
    rw [← trace, ← trace'] at ends ⊢
    exact ends.symm
  | error hx hy ends =>
    rw [hr] at hx
    rw [hr'] at hy
    obtain ⟨rfl, rfl⟩ := Prod.mk.inj hx
    obtain ⟨rfl, rfl⟩ := Prod.mk.inj hy
    rw [← trace, ← trace'] at ends ⊢
    obtain ⟨rfl, calls⟩ := ends
    exact ⟨calls, .failed _⟩

/-- A client that hands out the sections of a list, as long as there are any. Every other section is
a grid on its one table. -/
def Client.dispenser : Client Rat (List SectionId) where
  createWidget _ _ view
    | [] => (.error (.plain "No section is left"), [])
    | id :: ids => (.ok ⟨id, view.getD ⟨1⟩⟩, ids)
  applyMutations _ ids := (.ok (), ids)
  fetchWidget id ids := (.ok (some (.create id ⟨1⟩ .grid)), ids)
  loadLayout _ ids := (.ok none, ids)
  listColumns _ ids := (.ok [⟨⟨1⟩, "Total", "Numeric"⟩], ids)
  summarySource _ ids := (.ok none, ids)

theorem Client.dispenser_alike :
    dispenser.Alike dispenser fun _ ids ids' => ids.length = ids'.length where
  fetch h _ _ _ := ⟨rfl, h⟩
  columns h _ := ⟨rfl, h⟩
  lineage h _ := ⟨rfl, h⟩
  create {xs s s'} h t type view := by
    cases s with
    | nil =>
      obtain rfl := List.length_eq_zero_iff.1 h.symm
      exact .inl ⟨_, _, _, rfl, rfl⟩
    | cons a s =>
      obtain ⟨b, s', rfl⟩ := List.exists_cons_of_length_eq_add_one h.symm
      exact .inr ⟨a, b, _, s, s', rfl, rfl, fun _ _ => Nat.succ.inj h⟩
  apply _ _ _ := rfl

/-- The two panes that the shop's buyers get, on sections of its own or of another choice. -/
def Client.buyersRun (ids : List SectionId) :
    Except CompileError (CompileOutcome Rat) × Traced Rat (List SectionId) :=
  compile dispenser.traced .standard ⟨0⟩
    ⟨none, Document.shop.tableMap, some Document.buyersLayout⟩ (ids, [])

theorem compile_opaque_dispensed : ∃ res res' e e' es es',
    Client.buyersRun [⟨8⟩, ⟨9⟩] = (res, e, es) ∧ Client.buyersRun [⟨9⟩, ⟨4⟩] = (res', e', es') ∧
    newSections es = [⟨8⟩, ⟨9⟩] ∧ newSections es' = [⟨9⟩, ⟨4⟩] ∧
    es' = es.map (·.rename (renameBy [(⟨8⟩, ⟨9⟩), (⟨9⟩, ⟨4⟩)])) ∧
    EndsAlike (renameBy [(⟨8⟩, ⟨9⟩), (⟨9⟩, ⟨4⟩)]) res res' := by
  have handed : newSections (Client.buyersRun [⟨8⟩, ⟨9⟩]).2.2 = [⟨8⟩, ⟨9⟩] := by decide +kernel
  have handed' : newSections (Client.buyersRun [⟨9⟩, ⟨4⟩]).2.2 = [⟨9⟩, ⟨4⟩] := by decide +kernel
  rcases run : Client.buyersRun [⟨8⟩, ⟨9⟩] with ⟨res, e, es⟩
  rcases run' : Client.buyersRun [⟨9⟩, ⟨4⟩] with ⟨res', e', es'⟩
  rw [run] at handed
  rw [run'] at handed'
  dsimp only at handed handed'
  let request : LayoutRequest Rat := ⟨none, Document.shop.tableMap, some Document.buyersLayout⟩
  have unused : request.Unused (newSections es) := by
    rw [handed]
    decide +kernel
  have unused' : request.Unused (newSections es') := by
    rw [handed']
    decide +kernel
  have even : ([⟨8⟩, ⟨9⟩] : List SectionId).length = ([⟨9⟩, ⟨4⟩] : List SectionId).length := rfl
  have both := compile_opaque Client.dispenser_alike even .standard ⟨0⟩ run run' unused unused'
  rw [handed, handed'] at both
  exact ⟨res, res', e, e', es, es', rfl, rfl, handed, handed', both⟩

end PaneLayout
