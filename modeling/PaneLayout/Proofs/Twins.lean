import PaneLayout.Proofs.Inventory
import PaneLayout.Proofs.Pacing
import PaneLayout.Proofs.Renaming

set_option autoImplicit false

/-!
# Clients that differ in the sections they hand out

Two runs on clients that answer alike, apart from the sections they hand out. Up to the last
creation the runs stay side by side: they have called the clients alike, one call after the other,
and what they have worked out differs in the names of the new sections. For that no new section may
be a number that the layout mentions, or a link to that number would change its meaning.
-/

namespace PaneLayout

variable {α σ τ β : Type}

/-- The sections that are handed out in a trace, in order. -/
def newSections (es : List (Event α)) : List SectionId := (madeIn es).map (·.id)

/-- Clients that answer alike, apart from the sections that they hand out. `R` relates their states
after the sections of the list have been handed out, in pairs. -/
structure Client.Alike (client : Client α σ) (client' : Client α τ)
    (R : List (SectionId × SectionId) → σ → τ → Prop) : Prop where
  fetch : ∀ {xs s s'}, R xs s s' → ∀ id, id ∉ xs.map (·.1) → id ∉ xs.map (·.2) →
    AnswerAlike (R xs) (client.fetchWidget id s) (client'.fetchWidget id s')
  columns : ∀ {xs s s'}, R xs s s' → ∀ t,
    AnswerAlike (R xs) (client.listColumns t s) (client'.listColumns t s')
  lineage : ∀ {xs s s'}, R xs s s' → ∀ t,
    AnswerAlike (R xs) (client.summarySource t s) (client'.summarySource t s')
  create : ∀ {xs s s'}, R xs s s' → ∀ t type view,
    (∃ f e e', client.createWidget t type view s = (.error f, e) ∧
      client'.createWidget t type view s' = (.error f, e')) ∨
    ∃ a b v e e', client.createWidget t type view s = (.ok ⟨a, v⟩, e) ∧
      client'.createWidget t type view s' = (.ok ⟨b, v⟩, e') ∧
      (a ∉ xs.map (·.1) → b ∉ xs.map (·.2) → R (xs ++ [(a, b)]) e e')
  apply : ∀ {xs s s'}, R xs s s' → ∀ ms,
    (∀ m ∈ ms, ∀ id ∈ m.sections, id ∈ xs.map (·.1) ∨ id ∉ xs.map (·.2)) →
    (client'.applyMutations (ms.map (·.rename (renameBy xs))) s').1 =
      (client.applyMutations ms s).1

/-- The section of a pane and the section it is linked to by number. -/
def Pane.mentioned (p : Pane) : List SectionId :=
  p.section?.toList ++ match p.link.map (·.source) with
    | some (.id n) => [n]
    | _ => []

namespace LayoutRequest

def mentioned (request : LayoutRequest α) : List SectionId :=
  request.layout.elim [] fun t => t.panes.flatMap (·.mentioned)

variable {request : LayoutRequest α} {t : Layout α} (layout : request.layout = some t) {p : Pane}
  (hp : p ∈ t.panes) {n : SectionId}
include layout hp

theorem mem_mentioned (hn : n ∈ p.mentioned) : n ∈ request.mentioned := by
  rw [mentioned, layout]
  exact List.mem_flatMap.2 ⟨p, hp, hn⟩

theorem mem_mentioned_of_section (own : p.section? = some n) : n ∈ request.mentioned := by
  refine mem_mentioned layout hp (List.mem_append_left _ ?_)
  rw [own]
  exact List.mem_singleton_self n

theorem mem_mentioned_of_link {l : Link} (link : p.link = some l) (source : l.source = .id n) :
    n ∈ request.mentioned := by
  refine mem_mentioned layout hp (List.mem_append_right _ ?_)
  rw [link, Option.map_some, source]
  exact List.mem_singleton_self n

end LayoutRequest

/-! ## Traces -/

theorem newSections_concat (es : List (Event α)) (e : Event α) : newSections (es ++ [e]) =
    newSections es ++ ((e.creation?.bind CreateCall.made?).map (·.id)).toList := by
  unfold newSections
  rw [madeIn_concat, List.map_append]
  cases e.creation?.bind CreateCall.made? <;> rfl

theorem newSections_prefix {es fs : List (Event α)} (h : es <+: fs) :
    newSections es <+: newSections fs :=
  ((h.filterMap _).filterMap _).map _

namespace Compile

/-! ## Side by side -/

section
variable (R : List (SectionId × SectionId) → σ → τ → Prop) (ρ : SectionId → SectionId)

/-- Two runs that have called their clients alike and have been handed out the sections `xs`. -/
structure Beside (xs : List (SectionId × SectionId)) (st : Schooled (Traced α σ))
    (st' : Schooled (Traced α τ)) : Prop where
  engines : R xs st.engine.1 st'.engine.1
  columns : st'.columns = st.columns
  lineage : st'.lineage = st.lineage
  trace : st'.trace = st.trace.map (·.rename ρ)
  handed : newSections st.trace = xs.map (·.1)
  handed' : newSections st'.trace = xs.map (·.2)

/-- The runs hand out nothing, and what comes out of them is the same. -/
def Alongside (xs : List (SectionId × SectionId)) (x : LinkRun (Traced α σ) β)
    (y : LinkRun (Traced α τ) β) : Prop :=
  ∀ st st', Beside R ρ xs st st' → x.Pairs y st st'
    (fun b c t t' => c = b ∧ Beside R ρ xs t t')
    fun e e' t t' => e' = e ∧ e.created = [] ∧ Beside R ρ xs t t'

/-- Errors that differ in the names of sections, of runs that have called their clients alike. -/
def FailAlike (e e' : CompileError) (st : Schooled (Traced α σ)) (st' : Schooled (Traced α τ)) :
    Prop :=
  e' = e.rename ρ ∧ st'.trace = st.trace.map (·.rename ρ)

end

variable {R : List (SectionId × SectionId) → σ → τ → Prop} {ρ : SectionId → SectionId}
  {xs : List (SectionId × SectionId)} {st : Schooled (Traced α σ)} {st' : Schooled (Traced α τ)}

/-- Clients whose calls so far differ in the names of the sections `xs`, which they have handed
out. -/
structure Abreast (R : List (SectionId × SectionId) → σ → τ → Prop) (ρ : SectionId → SectionId)
    (xs : List (SectionId × SectionId)) (s : Traced α σ) (s' : Traced α τ) : Prop where
  states : R xs s.1 s'.1
  trace : s'.2 = s.2.map (·.rename ρ)
  handed : newSections s.2 = xs.map (·.1)
  handed' : newSections s'.2 = xs.map (·.2)

theorem beside_iff : Beside R ρ xs st st' ↔ Level (Abreast R ρ xs) st st' where
  mp h := ⟨⟨h.engines, h.trace, h.handed, h.handed'⟩, h.columns, h.lineage⟩
  mpr h := ⟨h.engines.states, h.columns, h.lineage, h.engines.trace, h.engines.handed,
    h.engines.handed'⟩

/-- To be side by side is to keep pace, the traces being part of what the clients hold. -/
theorem alongside_iff {x : LinkRun (Traced α σ) β} {y : LinkRun (Traced α τ) β} :
    Alongside R ρ xs x y ↔ x.Paced (Abreast R ρ xs) y := by
  unfold Alongside LinkRun.Paced
  simp only [beside_iff]

theorem Abreast.note {s : Traced α σ} {s' : Traced α τ} (h : Abreast R ρ xs s s')
    {e : Except Fault β → Event α} (read : ∀ answer, (e answer).isWrite = false)
    {call : σ → Reply σ β} {call' : τ → Reply τ β}
    (alike : AnswerAlike (R xs) (call s.1) (call' s'.1)) :
    AnswerAlike (Abreast R ρ xs) (Client.note e call s) (Client.note e call' s') := by
  obtain ⟨same, states⟩ := alike
  have quiet := read (call s.1).1
  have unnamed : (e (call s.1).1).rename ρ = e (call s.1).1 := by
    cases ev : e (call s.1).1 <;> first | rfl | (rw [ev] at quiet; cases quiet)
  refine ⟨same, states, ?_, ?_, ?_⟩
  · simp only [Client.note, same, List.map_append, List.map_singleton, unnamed, h.trace]
  · rw [← h.handed]
    exact congrArg (List.map _) (madeIn_reads s.2 (List.forall_mem_singleton.2 quiet))
  · rw [← h.handed']
    exact congrArg (List.map _)
      (madeIn_reads s'.2 (List.forall_mem_singleton.2 (read (call' s'.1).1)))

variable {client : Client α σ} {client' : Client α τ}

/-- What a link asks of the schema. -/
theorem alongside_schooling (alike : client.Alike client' R) :
    Schooling (fun {β} (x : LinkRun (Traced α σ) β) y => Alongside R ρ xs x y) client.traced
      client'.traced := by
  simp only [alongside_iff]
  exact paced_schooling
    (fun h t => h.note (e := .listColumns t) (fun _ => rfl) (alike.columns h.states t))
    fun h t => h.note (e := .summarySource t) (fun _ => rfl) (alike.lineage h.states t)

/-- And all that is read before anything has been handed out. -/
theorem alongside_reading (alike : client.Alike client' R) :
    Reading (fun {β} (x : LinkRun (Traced α σ) β) y => Alongside R ρ [] x y) client.traced
      client'.traced where
  toSchooling := alongside_schooling alike
  fetch id := alongside_iff.2 (LinkRun.paced_ask (.fetchWidget id) fun h =>
    h.note (e := .fetchWidget id) (fun _ => rfl)
      (alike.fetch h.states id List.not_mem_nil List.not_mem_nil))

/-! ## Links -/

section
variable {Fixed : SectionId → Prop} (rules : LinkRules) (plan : Plan α) (s : Surroundings)

theorem resolveLink_twins (alike : client.Alike client' R) {r r' : Registry}
    (registry : r.Renamed ρ Fixed r') {l : PendingLink} (keeps : ∀ n, l.target = .id n → Fixed n)
    (h : Beside R ρ xs st st') :
    (resolveLink client.traced rules plan r s l).Pairs
      (resolveLink client'.traced rules plan r' s l) st st'
      (fun t t' u u' => t' = t.rename ρ ∧ t.source ∈ r.known ∧ Beside R ρ xs u u')
      fun e e' u u' => e' = e ∧ e.created = [] ∧ Beside R ρ xs u u' := by
  have ends : s.ends r' l = s.ends r l := by
    rw [s.ends_eq_bind, s.ends_eq_bind]
    unfold Surroundings.sourceTable?
    rw [registry.targetPane? keeps]
  unfold resolveLink
  rw [registry.lookupTarget keeps, ends]
  cases found : r.lookupTarget l.target with
  | none => exact .error rfl rfl ⟨rfl, rfl, h⟩
  | some source =>
    cases s.ends r l with
    | none => exact .error rfl rfl ⟨rfl, rfl, h⟩
    | some ends =>
      have checked := (alongside_schooling (ρ := ρ) alike).check rules l.link ends
        (labelOf plan l.ownerIndex) st st' h
      refine Run.Pairs.bind (checked.mono ?_ fun _ _ _ _ => id)
      rintro _ ⟨sourceCol, targetCol⟩ u u' ⟨rfl, h⟩
      exact .ok rfl rfl ⟨rfl, registry.mem_known_of_lookupTarget found, h⟩

variable {rules plan s}

/-- What two runs have made of a plan differs in the names of the sections that they have been
handed out. -/
structure Twin (R : List (SectionId × SectionId) → σ → τ → Prop) (ρ : SectionId → SectionId)
    (Fixed : SectionId → Prop) (plan : Plan α) (xs : List (SectionId × SectionId))
    (p p' : Progress) (st : Schooled (Traced α σ)) (st' : Schooled (Traced α τ)) : Prop
    extends Beside R ρ xs st st' where
  registry : p.registry.Renamed ρ Fixed p'.registry
  queue : ∀ l ∈ p.registry.pending, l ∈ plan.links
  view : p'.view = p.view
  created : p'.created = p.created.map (·.rename ρ)
  tuples : p'.tuples = p.tuples.mapValues (·.rename ρ)
  sources : ∀ i t, p.tuples.get? i = some t → t.source ∈ p.registry.known
  known : ∀ a ∈ p.registry.known, Fixed a ∨ a ∈ xs.map (·.1)

variable {p p' : Progress}

theorem Twin.insert (h : Twin R ρ Fixed plan xs p p' st st') {u : Schooled (Traced α σ)}
    {u' : Schooled (Traced α τ)} (beside : Beside R ρ xs u u') (i : Nat) {t : LinkTuple}
    (source : t.source ∈ p.registry.known) :
    Twin R ρ Fixed plan xs { p with tuples := p.tuples.insert i t }
      { p' with tuples := p'.tuples.insert i (t.rename ρ) } u u' where
  toBeside := beside
  registry := h.registry
  queue := h.queue
  view := h.view
  created := h.created
  tuples := by rw [h.tuples, SortedMap.mapValues_insert]
  sources j t' ht := by
    rw [SortedMap.get?_insert] at ht
    split at ht
    · obtain rfl := Option.some.inj ht
      exact source
    · exact h.sources j t' ht
  known := h.known

variable (keeps : ∀ l ∈ plan.links, ∀ n, l.target = .id n → Fixed n)
include keeps

theorem resolveDrained_twins (alike : client.Alike client' R) (ls : List PendingLink)
    (sub : ∀ l ∈ ls, l ∈ plan.links) (h : Twin R ρ Fixed plan xs p p' st st') :
    (resolveDrained client.traced rules plan s ls p).Pairs
      (resolveDrained client'.traced rules plan s ls p') st st' (Twin R ρ Fixed plan xs)
      (FailAlike ρ) := by
  induction ls generalizing p p' st st' with
  | nil => exact .ok rfl rfl h
  | cons l ls ih =>
    obtain ⟨hl, sub⟩ := List.forall_mem_cons.1 sub
    unfold resolveDrained
    have resolved := resolveLink_twins rules plan s alike h.registry
      (keeps l hl) h.toBeside
    refine Run.Pairs.bind (Run.Pairs.adapt (resolved.mono ?_ ?_))
    · rintro t _ u u' ⟨rfl, source, beside⟩
      exact ih sub (h.insert beside l.ownerIndex source)
    · rintro e _ u u' ⟨rfl, -, beside⟩
      exact ⟨by rw [h.created, CompileError.rename_withCreated], beside.trace⟩

theorem resolveOrDefer_twins (alike : client.Alike client' R) (ls : List PendingLink)
    (sub : ∀ l ∈ ls, l ∈ plan.links) (h : Twin R ρ Fixed plan xs p p' st st') :
    (resolveOrDefer client.traced rules plan s ls p).Pairs
      (resolveOrDefer client'.traced rules plan s ls p') st st' (Twin R ρ Fixed plan xs)
      (FailAlike ρ) := by
  induction ls generalizing p p' st st' with
  | nil => exact .ok rfl rfl h
  | cons l ls ih =>
    obtain ⟨hl, sub⟩ := List.forall_mem_cons.1 sub
    unfold resolveOrDefer
    rw [h.registry.isResolvable (keeps l hl)]
    split
    · have resolved := resolveLink_twins rules plan s alike h.registry
        (keeps l hl) h.toBeside
      refine Run.Pairs.bind (resolved.mono ?_ ?_)
      · rintro t _ u u' ⟨rfl, source, beside⟩
        exact ih sub (h.insert beside l.ownerIndex source)
      · rintro e _ u u' ⟨rfl, blank, beside⟩
        exact ⟨(CompileError.rename_of_blank ρ blank).symm, beside.trace⟩
    · refine ih sub { h with registry := ?_, queue := ?_ }
      · exact h.registry.requeue (congrArg (· ++ [l]) h.registry.pending)
      · exact List.forall_mem_append.2 ⟨h.queue, List.forall_mem_singleton.2 hl⟩

omit keeps

/-! ## Creations -/

/-- What is handed out in two whole runs: nothing twice, nothing `Fixed`, and in pairs. -/
structure Apart (ρ : SectionId → SectionId) (Fixed : SectionId → Prop) (ids ids' : List SectionId) :
    Prop where
  distinct : ids.Nodup
  distinct' : ids'.Nodup
  unfixed : ∀ n, Fixed n → n ∉ ids ∧ n ∉ ids'
  paired : ∀ x ∈ ids.zip ids', ρ x.1 = x.2

/-- The next sections that are handed out. -/
theorem Apart.next {ids ids' : List SectionId} {a b : SectionId} (h : Apart ρ Fixed ids ids')
    (here : xs.map (·.1) ++ [a] <+: ids) (here' : xs.map (·.2) ++ [b] <+: ids') :
    ρ a = b ∧ (∀ n, Fixed n → (b = n ↔ a = n)) ∧ a ∉ xs.map (·.1) ∧ b ∉ xs.map (·.2) := by
  obtain ⟨more, rfl⟩ := here
  obtain ⟨more', rfl⟩ := here'
  have len : (xs.map (·.1) ++ [a]).length = (xs.map (·.2) ++ [b]).length := by simp
  refine ⟨h.paired (a, b) ?_, fun n hn => ?_, ?_, ?_⟩
  · rw [List.zip_append len, List.zip_append (by simp)]
    simp
  · obtain ⟨ha, hb⟩ := h.unfixed n hn
    refine ⟨?_, ?_⟩ <;> rintro rfl
    · exact absurd (by simp) hb
    · exact absurd (by simp) ha
  · intro before
    exact (List.nodup_append.1 (List.nodup_append.1 h.distinct).1).2.2 a before a (by simp) rfl
  · intro before
    exact (List.nodup_append.1 (List.nodup_append.1 h.distinct').1).2.2 b before b (by simp) rfl

theorem create_twins (alike : client.Alike client' R) (c : Creation)
    (h : Twin R ρ Fixed plan xs p p' st st') :
    (create client.traced c p).Pairs (create client'.traced c p') st st'
      (fun p₁ p₁' u u' => ∃ a b, newSections u.trace = xs.map (·.1) ++ [a] ∧
        newSections u'.trace = xs.map (·.2) ++ [b] ∧
        (ρ a = b ∧ (∀ n, Fixed n → (b = n ↔ a = n)) ∧ a ∉ xs.map (·.1) ∧ b ∉ xs.map (·.2) →
          Twin R ρ Fixed plan (xs ++ [(a, b)]) p₁ p₁' u u'))
      (FailAlike ρ) := by
  have run := LinkRun.start_ask_note (.createWidget c.paneIndex c.table)
    (fun answer => .createWidget ⟨c.table, c.type, p.view, answer⟩)
    (client.createWidget c.table c.type p.view) st
  have run' := LinkRun.start_ask_note (.createWidget c.paneIndex c.table)
    (fun answer => .createWidget ⟨c.table, c.type, p'.view, answer⟩)
    (client'.createWidget c.table c.type p'.view) st'
  rw [h.view] at run'
  rcases alike.create h.engines c.table c.type p.view with
    ⟨f, e, e', hx, hy⟩ | ⟨a, b, v, e, e', hx, hy, next⟩
  · rw [hx] at run
    rw [hy] at run'
    unfold create
    rw [h.view]
    refine Run.Pairs.bind (Run.Pairs.adapt (.error run run' ⟨?_, ?_⟩))
    · rw [h.created]
      exact (CompileError.rename_withCreated ρ _ _).symm
    · change st'.trace ++ _ = (st.trace ++ _).map _
      rw [List.map_append, ← h.trace]
      rfl
  · rw [hx] at run
    rw [hy] at run'
    have handed : newSections (st.trace ++ [.createWidget ⟨c.table, c.type, p.view, .ok ⟨a, v⟩⟩]) =
        xs.map (·.1) ++ [a] := by
      rw [newSections_concat, h.handed]
      rfl
    have handed' : newSections
        (st'.trace ++ [.createWidget ⟨c.table, c.type, p.view, .ok ⟨b, v⟩⟩]) =
        xs.map (·.2) ++ [b] := by
      rw [newSections_concat, h.handed']
      rfl
    unfold create
    rw [h.view]
    refine Run.Pairs.bind (Run.Pairs.adapt (.ok run run' (.ok rfl rfl ⟨a, b, handed, handed', ?_⟩)))
    rintro ⟨rfl, apart, new, new'⟩
    exact {
      engines := next new new'
      columns := h.columns
      lineage := h.lineage
      trace := by
        change st'.trace ++ _ = (st.trace ++ _).map _
        rw [List.map_append, ← h.trace]
        rfl
      handed := by rw [List.map_append]; exact handed
      handed' := by rw [List.map_append]; exact handed'
      registry := h.registry.resolve rfl apart
      queue := h.queue
      view := rfl
      created := by
        rw [h.created, List.map_append]
        rfl
      tuples := h.tuples
      sources := fun i t ht => List.mem_cons_of_mem _ (h.sources i t ht)
      known := by
        rw [List.map_append]
        refine List.forall_mem_cons.2 ⟨.inr (by simp), fun n hn => ?_⟩
        exact (h.known n hn).imp_right (List.mem_append_left _) }

/-- What follows a creation only adds to the trace. -/
theorem drained_grows (client : Client α σ) (rules : LinkRules) (plan : Plan α) (s : Surroundings)
    (cs : List Creation) (p : Progress) : LinkRun.Grows (do
      let p ← resolveDrained client.traced rules plan s p.registry.drain.1
        { p with registry := p.registry.drain.2 }
      createAll client.traced rules plan s cs p) := by
  have more := grows_populating client
  exact .bind (more.resolveDrained rules plan s more.toClosed _ _)
    (more.createAll rules plan s cs)

theorem createAll_twins (alike : client.Alike client' R)
    (keeps : ∀ l ∈ plan.links, ∀ n, l.target = .id n → Fixed n) (cs : List Creation)
    (h : Twin R ρ Fixed plan xs p p' st st')
    (apart : Apart ρ Fixed
      (newSections ((createAll client.traced rules plan s cs p).start st).2.trace)
      (newSections ((createAll client'.traced rules plan s cs p').start st').2.trace)) :
    (createAll client.traced rules plan s cs p).Pairs
      (createAll client'.traced rules plan s cs p') st st'
      (fun q q' u u' => ∃ ys, Twin R ρ Fixed plan ys q q' u u') (FailAlike ρ) := by
  let Ends (u : Schooled (Traced α σ)) (u' : Schooled (Traced α τ)) : Prop :=
    Apart ρ Fixed (newSections u.trace) (newSections u'.trace)
  induction cs generalizing xs p p' st st' with
  | nil => exact .ok rfl rfl ⟨xs, h⟩
  | cons c cs ih =>
    unfold createAll at apart ⊢
    refine Run.Pairs.bind_of_end (C := Ends) ((create_twins alike c h).mono ?_ fun _ _ _ _ => id)
      apart
    rintro p₁ p₁' u u' ⟨a, b, handed, handed', twin⟩ ends
    have grows := drained_grows client rules plan s cs p₁ u
    have grows' := drained_grows client' rules plan s cs p₁' u'
    have h₁ := twin (ends.next (handed ▸ newSections_prefix grows)
      (handed' ▸ newSections_prefix grows'))
    obtain ⟨ready, registry⟩ := h₁.registry.drain fun l hl => keeps l (h₁.queue l hl)
    have drained : Twin R ρ Fixed plan (xs ++ [(a, b)]) { p₁ with registry := p₁.registry.drain.2 }
        { p₁' with registry := p₁'.registry.drain.2 } u u' :=
      { h₁ with
        registry := registry
        queue := fun l hl => h₁.queue l (List.mem_of_mem_filter hl) }
    dsimp only at ends ⊢
    rw [ready] at ends ⊢
    refine Run.Pairs.bind_of_end (C := Ends) ((resolveDrained_twins keeps alike p₁.registry.drain.1
      (fun l hl => h₁.queue l (List.mem_of_mem_filter hl)) drained).mono ?_ fun _ _ _ _ => id) ends
    rintro p₂ p₂' w w' h₂ ends
    exact ih h₂ ends

end

/-! ## Up to the last creation -/

omit client client' in
theorem created_of_isEarly {e : CompileError} (early : e.isEarly = true) : e.created = [] := by
  cases e <;> first | rfl | cases early

section
variable {σ : Type} (client : Client α σ)

/-- The known sections are those of the tree and link targets. -/
theorem fetchTargets_marks (ls : List PendingLink) (r : Registry)
    (ws : SortedMap SectionId WidgetInfo) (st : Schooled σ) :
    (fetchTargets client ls r ws).Yields st
      (fun x _ => (∀ id ∈ r.known, id ∈ x.1.known) ∧
        ∀ id ∈ x.1.known, id ∈ r.known ∨ ∃ l ∈ ls, l.target = .id id) fun _ _ => True := by
  induction ls generalizing r ws st with
  | nil => exact ⟨fun _ => id, fun _ => .inl⟩
  | cons l ls ih =>
    have skip {r : Registry} {ws : SortedMap SectionId WidgetInfo} (st : Schooled σ) :
        (fetchTargets client ls r ws).Yields st (fun x _ => (∀ id ∈ r.known, id ∈ x.1.known) ∧
          ∀ id ∈ x.1.known, id ∈ r.known ∨ ∃ l' ∈ l :: ls, l'.target = .id id)
        fun _ _ => True := by
      refine (ih r ws st).mono ?_ fun _ _ => id
      rintro x _ ⟨kept, marks⟩
      refine ⟨kept, fun id hid => (marks id hid).imp_right ?_⟩
      rintro ⟨l', hl', ht⟩
      exact ⟨l', List.mem_cons_of_mem l hl', ht⟩
    unfold fetchTargets
    cases target : l.target with
    | name key => exact skip st
    | id n =>
      dsimp only
      split
      · exact skip st
      · rw [Run.yields_bind, fetch, LinkRun.yields_ask]
        rcases client.fetchWidget n st.engine with ⟨_ | _ | w, e⟩
        · trivial
        · exact skip _
        · refine (skip (r := r.markKnown n) _).mono ?_ fun _ _ => id
          rintro x _ ⟨kept, marks⟩
          refine ⟨fun id hid => kept id (List.mem_cons_of_mem n hid), fun id hid => ?_⟩
          rcases marks id hid with known | later
          · rcases List.mem_cons.1 known with rfl | known
            · exact .inr ⟨l, List.mem_cons_self, target⟩
            · exact .inl known
          · exact .inr later

theorem survey_marks [Scalar α] {rules : LinkRules} {plan : Plan α} {request : LayoutRequest α}
    {t : Layout α} (layout : request.layout = some t) (draws : plan.Draws request.tables t)
    (st : Schooled σ) : (survey client rules plan).Yields st
      (fun x _ => (∀ id ∈ plan.registry.known, id ∈ x.1.known) ∧
        ∀ id ∈ x.1.known, id ∈ request.mentioned) fun _ _ => True := by
  unfold survey
  rw [Run.yields_bind]
  refine (Run.yields_trivial _ st).mono ?_ fun _ _ => id
  rintro ⟨s, missing⟩ st₁ -
  dsimp only
  split
  · trivial
  rw [Run.yields_bind]
  refine (fetchTargets_marks client plan.links plan.registry s.widgets st₁).mono ?_ fun _ _ => id
  rintro ⟨r, ws⟩ st₂ ⟨kept, marks⟩
  dsimp only at kept marks ⊢
  rw [Run.yields_bind]
  refine (Run.yields_trivial _ st₂).mono ?_ fun _ _ => id
  rintro - st₃ -
  refine ⟨kept, fun id hid => ?_⟩
  rcases marks id hid with known | ⟨l, hl, target⟩
  · obtain ⟨p, hp, own⟩ := (draws.known id).1 known
    exact LayoutRequest.mem_mentioned_of_section layout hp own
  · obtain ⟨p, hp, link, source⟩ := draws.pane_of_link hl
    exact LayoutRequest.mem_mentioned_of_link layout (List.mem_of_getElem? hp) link
      (source.symm.trans target)

end

/-- After the survey the two runs know the same. -/
theorem Twin.start [Scalar α] {tables : TableMap} {t : Layout α} {plan : Plan α} {r : Registry}
    {Fixed : SectionId → Prop} (view : Option ViewRef) (draws : plan.Draws tables t)
    (beside : Beside R ρ [] st st') (registry : r = { plan.registry with known := r.known })
    (kept : ∀ id ∈ plan.registry.known, id ∈ r.known) (marks : ∀ id ∈ r.known, Fixed id)
    (fixes : ∀ n, Fixed n → ρ n = n) :
    Twin R ρ Fixed plan [] ⟨r, view, [], ∅⟩ ⟨r, view, [], ∅⟩ st st' where
  toBeside := beside
  registry := by
    refine .start ?_ marks fixes fun id hid => kept id ?_
    · rw [registry, draws.resolved]
    · rw [registry, draws.registered] at hid
      obtain ⟨slot, hs, real⟩ := List.mem_map.1 hid
      exact (draws.known id).2 ⟨slot.pane, Layout.pane_mem_of_slot hs,
        (Slot.number_real hs id).1 real⟩
  queue := by
    rw [registry, draws.pending]
    exact fun l none => nomatch none
  view := rfl
  created := rfl
  tuples := rfl
  sources := fun i t none => nomatch none
  known := fun a ha => .inl (marks a ha)

theorem populate_twins [Scalar α] {request : LayoutRequest α} (alike : client.Alike client' R)
    (config : CompilerConfig)
    (fixes : ∀ n ∈ request.mentioned, ρ n = n) (h : Beside R ρ [] st st')
    (apart : Apart ρ (· ∈ request.mentioned)
      (newSections ((populate client.traced config request).start st).2.trace)
      (newSections ((populate client'.traced config request).start st').2.trace)) :
    (populate client.traced config request).Pairs (populate client'.traced config request) st st'
      (fun x x' u u' => x'.1 = x.1 ∧ x'.2.1 = x.2.1 ∧
        ∃ xs, Twin R ρ (· ∈ request.mentioned) x.1 xs x.2.2 x'.2.2 u u') (FailAlike ρ) := by
  let Ends (u : Schooled (Traced α σ)) (u' : Schooled (Traced α τ)) : Prop :=
    Apart ρ (· ∈ request.mentioned) (newSections u.trace) (newSections u'.trace)
  unfold populate at apart ⊢
  cases hm : Plan.make request.layout request.tables with
  | error e =>
    have blank := created_of_isEarly (make_error hm)
    exact .bind (.error rfl rfl ⟨(CompileError.rename_of_blank ρ blank).symm, h.trace⟩)
  | ok plan =>
    obtain ⟨t, layout, -, draws⟩ := Plan.make_ok hm
    rw [hm] at apart
    refine Run.Pairs.bind_of_end (C := Ends) (.ok rfl rfl fun ends => ?_) apart
    by_cases homeless : (request.view.isNone && plan.creations.isEmpty) = true
    · rw [if_pos homeless, if_pos homeless]
      exact .bind (.error rfl rfl ⟨rfl, h.trace⟩)
    rw [if_neg homeless, if_neg homeless] at ends ⊢
    have surveyed := (alongside_reading (ρ := ρ) alike).survey
      (.ofConfig request.tables config) plan st st' h
    have told : (survey client.traced (.ofConfig request.tables config) plan).Yields st _ _ :=
      (survey_known draws st).and (survey_marks client.traced layout draws st)
    refine Run.Pairs.bind_of_end (C := Ends)
      ((surveyed.and told (Run.yields_trivial _ st')).mono ?_ ?_) ends
    · rintro ⟨r, s⟩ _ u u' ⟨⟨rfl, beside⟩, ⟨⟨registry, -⟩, kept, marks⟩, -⟩ ends
      dsimp only at registry kept marks ends ⊢
      have start := Twin.start request.view draws beside registry kept marks fixes
      have keeps : ∀ l ∈ plan.links, ∀ n, l.target = .id n → n ∈ request.mentioned := by
        intro l hl n target
        obtain ⟨pane, hp, link, source⟩ := draws.pane_of_link hl
        exact LayoutRequest.mem_mentioned_of_link layout (List.mem_of_getElem? hp) link
          (source.symm.trans target)
      refine Run.Pairs.bind_of_end (C := Ends)
        ((resolveOrDefer_twins keeps alike plan.links (fun _ => id) start).mono ?_
          fun _ _ _ _ => id) ends
      intro p p' v v' twin ends
      simp only [Run.end_bind_pure] at ends
      refine Run.Pairs.bind ((createAll_twins alike keeps plan.creations twin ends).mono ?_
        fun _ _ _ _ => id)
      exact fun q q' w w' twins => .ok rfl rfl ⟨rfl, rfl, twins⟩
    · rintro e _ u u' ⟨⟨rfl, blank, beside⟩, -⟩
      exact ⟨(CompileError.rename_of_blank ρ blank).symm, beside.trace⟩

end Compile
end PaneLayout
