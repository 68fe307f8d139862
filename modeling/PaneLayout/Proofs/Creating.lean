import PaneLayout.Proofs.Growth
import PaneLayout.Proofs.Survey

set_option autoImplicit false

/-!
# Creating widgets and resolving links

The loop that creates the new panes of a plan. After the creations `cs` the registry is
`registryAfter d r cs` up to its queue, the document has grown by `cs`, and every link of the plan
is in the queue or has a tuple that some earlier registry gave it.
-/

namespace PaneLayout.Compile

variable {α : Type}

/-! ## One link -/

/-- What a link comes to in a registry. -/
structure Resolves (ts : TableStore) (rules : LinkRules) (s : Surroundings) (r : Registry)
    (l : PendingLink) (t : LinkTuple) : Prop where
  source : r.lookupTarget l.target = some t.source
  fits : ∃ ends, s.ends r l = some ends ∧ l.link.Fits ts rules ends ∧
    (t.sourceCol, t.targetCol) = l.link.columnRefs ts ends

theorem ends_pending (s : Surroundings) (r : Registry) (q : List PendingLink) (l : PendingLink) :
    s.ends { r with pending := q } l = s.ends r l := by
  rw [s.ends_eq_bind, s.ends_eq_bind]
  unfold Surroundings.sourceTable?
  cases l.target <;> rfl

theorem resolves_pending {ts : TableStore} {rules : LinkRules} {s : Surroundings} {r : Registry}
    {q : List PendingLink} {l : PendingLink} {t : LinkTuple} :
    Resolves ts rules s { r with pending := q } l t ↔ Resolves ts rules s r l t := by
  constructor
  · rintro ⟨source, fits⟩
    rw [Registry.lookupTarget_pending] at source
    rw [ends_pending] at fits
    exact ⟨source, fits⟩
  · rintro ⟨source, fits⟩
    rw [← Registry.lookupTarget_pending q] at source
    rw [← ends_pending s r q] at fits
    exact ⟨source, fits⟩

theorem resolveLink_yields {ts : TableStore} (rules : LinkRules) (plan : Plan α) (r : Registry)
    (s : Surroundings) (l : PendingLink) {st : Schooled (Document α)} (k : LinkCheck.Knows ts st) :
    (resolveLink Document.client rules plan r s l).Yields st
      (fun t st' => LinkCheck.Learns ts st st' ∧ Resolves ts rules s r l t)
      (fun _ st' => LinkCheck.Learns ts st st' ∧ ∀ t, ¬ Resolves ts rules s r l t) := by
  unfold resolveLink
  dsimp only
  cases hsource : r.lookupTarget l.target with
  | none =>
    refine ⟨k.stay, fun t resolves => ?_⟩
    have found := resolves.source
    rw [hsource] at found
    cases found
  | some source =>
    cases hends : s.ends r l with
    | none =>
      refine ⟨k.stay, fun t resolves => ?_⟩
      obtain ⟨ends, he, -⟩ := resolves.fits
      rw [hends] at he
      cases he
    | some ends =>
      refine (LinkCheck.resolve_yields rules l.link source ends _ k).mono ?_ ?_
      · rintro t st' ⟨learned, fits, rfl⟩
        exact ⟨learned, hsource, ends, hends, fits, rfl⟩
      · rintro e st' ⟨learned, misfit⟩
        refine ⟨learned, fun t resolves => ?_⟩
        obtain ⟨ends', he, fits, -⟩ := resolves.fits
        obtain rfl := Option.some.inj (hends.symm.trans he)
        exact misfit fits

/-! ## Several links -/

/-- The registry once the creations `cs` have been made. -/
def registryAfter (d : Document α) (r : Registry) (cs : List Creation) : Registry :=
  r.given ((cs.map (·.placeholder)).zip (d.nextSections cs.length))

theorem registryAfter_concat (d : Document α) (r : Registry) (cs : List Creation) (c : Creation) :
    registryAfter d r (cs ++ [c]) = (registryAfter d r cs).resolve c.placeholder
      ⟨d.lastSection + UInt32.ofNat (cs.length + 1)⟩ := by
  unfold registryAfter
  have ids := d.nextSections_length cs.length
  rw [List.map_append, List.length_append, List.length_singleton, d.nextSections_succ,
    List.zip_append (by rw [List.length_map, ids])]
  exact Registry.given_concat r _ _ _

theorem given_ids (d : Document α) (cs : List Creation) :
    ((cs.map (·.placeholder)).zip (d.nextSections cs.length)).map (·.2) =
      d.nextSections cs.length := by
  refine List.map_snd_zip (Nat.le_of_eq ?_)
  rw [d.nextSections_length, List.length_map]

theorem given_placeholders (d : Document α) (cs : List Creation) :
    ((cs.map (·.placeholder)).zip (d.nextSections cs.length)).map (·.1) =
      cs.map (·.placeholder) := by
  refine List.map_fst_zip (Nat.le_of_eq ?_)
  rw [d.nextSections_length, List.length_map]

theorem exists_creation {d : Document α} {cs : List Creation} {id : SectionId}
    (h : id ∈ d.nextSections cs.length) : ∃ c ∈ cs, .create id c.table c.type ∈ d.made cs ∧
      (c.placeholder, id) ∈ (cs.map (·.placeholder)).zip (d.nextSections cs.length) := by
  obtain ⟨i, hi, rfl⟩ := List.getElem_of_mem h
  have bound : i < cs.length := by rwa [d.nextSections_length] at hi
  have section_i : (d.nextSections cs.length)[i]? = some (d.nextSections cs.length)[i] :=
    List.getElem?_eq_getElem hi
  have creation_i : cs[i]? = some cs[i] := List.getElem?_eq_getElem bound
  refine ⟨cs[i], List.getElem_mem bound, List.mem_of_getElem? (i := i) ?_,
    List.mem_of_getElem? (i := i) ?_⟩
  · rw [Document.made, List.getElem?_zipWith, section_i, creation_i]
  · rw [List.zip, List.getElem?_zipWith, List.getElem?_map, section_i, creation_i]
    rfl

theorem mem_known_registryAfter (d : Document α) (r : Registry) (cs : List Creation)
    (n : SectionId) : n ∈ (registryAfter d r cs).known ↔
      n ∈ r.known ∨ n ∈ d.nextSections cs.length := by
  rw [registryAfter, Registry.mem_known_given, given_ids]

/-- Every tuple is that of a link of the plan, in a registry that the run has passed. -/
def Sound (d : Document α) (rules : LinkRules) (plan : Plan α) (r : Registry) (s : Surroundings)
    (cs : List Creation) (tuples : SortedMap Nat LinkTuple) : Prop :=
  ∀ i t, tuples.get? i = some t → ∃ l ∈ plan.links, l.ownerIndex = i ∧
    ∃ cs', cs' <+: cs ∧ Resolves d.tables rules s (registryAfter d r cs') l t

variable {d : Document α} {rules : LinkRules} {plan : Plan α} {r : Registry} {s : Surroundings}
  {cs cs' : List Creation} {tuples : SortedMap Nat LinkTuple}

theorem sound_empty : Sound d rules plan r s cs ∅ := fun i t h => by cases h

theorem Sound.mono (h : Sound d rules plan r s cs tuples) (le : cs <+: cs') :
    Sound d rules plan r s cs' tuples := by
  intro i t ht
  obtain ⟨l, hl, hi, cs'', le', resolves⟩ := h i t ht
  exact ⟨l, hl, hi, cs'', le'.trans le, resolves⟩

theorem Sound.insert (h : Sound d rules plan r s cs tuples) {l : PendingLink} (hl : l ∈ plan.links)
    {t : LinkTuple} (resolves : Resolves d.tables rules s (registryAfter d r cs) l t) :
    Sound d rules plan r s cs (tuples.insert l.ownerIndex t) := by
  intro i u hu
  rw [SortedMap.get?_insert] at hu
  split at hu
  · next same =>
    obtain rfl := Option.some.inj hu
    exact ⟨l, hl, same.symm, cs, List.prefix_refl cs, resolves⟩
  · exact h i u hu

/-- What a pass over the links `ls` makes of a run; `q` is the queue it leaves. -/
structure Passed (d : Document α) (rules : LinkRules) (plan : Plan α) (r : Registry)
    (s : Surroundings) (cs : List Creation) (ls q : List PendingLink) (p p' : Progress) : Prop where
  registry : p'.registry = { p.registry with pending := q }
  view : p'.view = p.view
  created : p'.created = p.created
  sound : Sound d rules plan r s cs p'.tuples
  resolved : ∀ l ∈ ls, p'.tuples.contains l.ownerIndex = true
  kept : ∀ i, p.tuples.contains i = true → p'.tuples.contains i = true

theorem Passed.cons {ls q : List PendingLink} {p p' : Progress} {l : PendingLink} {t : LinkTuple}
    (h : Passed d rules plan r s cs ls q { p with tuples := p.tuples.insert l.ownerIndex t } p') :
    Passed d rules plan r s cs (l :: ls) q p p' where
  registry := h.registry
  view := h.view
  created := h.created
  sound := h.sound
  resolved := by
    refine List.forall_mem_cons.2 ⟨h.kept _ ?_, h.resolved⟩
    simp [SortedMap.contains_insert]
  kept := by
    intro i hi
    refine h.kept i ?_
    simp [SortedMap.contains_insert, hi]

/-- A link whose ends both have sections, and that nevertheless comes to nothing. -/
def Unresolved (d : Document α) (rules : LinkRules) (plan : Plan α) (r : Registry)
    (s : Surroundings) (cs : List Creation) : Prop :=
  ∃ l ∈ plan.links, (registryAfter d r cs).isResolvable l = true ∧
    ∀ t, ¬ Resolves d.tables rules s (registryAfter d r cs) l t

theorem resolveLink_yields_after {l : PendingLink} (hl : l ∈ plan.links)
    (ready : (registryAfter d r cs).isResolvable l = true) {r' : Registry}
    (hr : r' = { registryAfter d r cs with pending := r'.pending }) {st : Schooled (Document α)}
    (k : LinkCheck.Knows d.tables st) :
    (resolveLink Document.client rules plan r' s l).Yields st
      (fun t st' => LinkCheck.Learns d.tables st st' ∧
        Resolves d.tables rules s (registryAfter d r cs) l t)
      (fun _ st' => LinkCheck.Learns d.tables st st' ∧ Unresolved d rules plan r s cs) := by
  refine (resolveLink_yields rules plan r' s l k).mono ?_ ?_
  · rintro t st' ⟨learned, resolves⟩
    rw [hr, resolves_pending] at resolves
    exact ⟨learned, resolves⟩
  · rintro e st' ⟨learned, unresolved⟩
    refine ⟨learned, l, hl, ready, fun t resolves => unresolved t ?_⟩
    rw [hr, resolves_pending]
    exact resolves

theorem resolveDrained_yields (ls : List PendingLink)
    (sub : ∀ l ∈ ls, l ∈ plan.links ∧ (registryAfter d r cs).isResolvable l = true)
    {p : Progress} (hr : p.registry = { registryAfter d r cs with pending := p.registry.pending })
    (sound : Sound d rules plan r s cs p.tuples) {st : Schooled (Document α)}
    (k : LinkCheck.Knows d.tables st) :
    (resolveDrained Document.client rules plan s ls p).Yields st
      (fun p' st' => LinkCheck.Learns d.tables st st' ∧
        Passed d rules plan r s cs ls p.registry.pending p p')
      (fun _ st' => LinkCheck.Learns d.tables st st' ∧ Unresolved d rules plan r s cs) := by
  induction ls generalizing p st with
  | nil => exact ⟨k.stay, rfl, rfl, rfl, sound, by simp, fun _ h => h⟩
  | cons l ls ih =>
    obtain ⟨⟨hl, ready⟩, sub⟩ := List.forall_mem_cons.1 sub
    unfold resolveDrained
    rw [Run.yields_bind, Run.yields_adapt]
    refine (resolveLink_yields_after hl ready hr k).mono ?_ fun _ _ h => h
    rintro t st₁ ⟨learned, resolves⟩
    refine (ih sub (p := { p with tuples := p.tuples.insert l.ownerIndex t }) hr
      (sound.insert hl resolves) learned.knows).mono ?_ ?_
    · rintro p' st₂ ⟨learned', passed⟩
      exact ⟨learned.trans learned', passed.cons⟩
    · rintro e st₂ ⟨learned', unresolved⟩
      exact ⟨learned.trans learned', unresolved⟩

theorem resolveOrDefer_yields (ls : List PendingLink) (sub : ∀ l ∈ ls, l ∈ plan.links)
    {p : Progress} (hr : p.registry = { registryAfter d r cs with pending := p.registry.pending })
    (sound : Sound d rules plan r s cs p.tuples) {st : Schooled (Document α)}
    (k : LinkCheck.Knows d.tables st) :
    (resolveOrDefer Document.client rules plan s ls p).Yields st
      (fun p' st' => LinkCheck.Learns d.tables st st' ∧
        Passed d rules plan r s cs (ls.filter (registryAfter d r cs).isResolvable)
          (p.registry.pending ++ ls.filter fun l => !(registryAfter d r cs).isResolvable l) p p')
      (fun _ st' => LinkCheck.Learns d.tables st st' ∧ Unresolved d rules plan r s cs) := by
  induction ls generalizing p st with
  | nil => exact ⟨k.stay, by simp, rfl, rfl, sound, by simp, fun _ h => h⟩
  | cons l ls ih =>
    obtain ⟨hl, sub⟩ := List.forall_mem_cons.1 sub
    have same : p.registry.isResolvable l = (registryAfter d r cs).isResolvable l := by
      rw [hr, Registry.isResolvable_pending]
    unfold resolveOrDefer
    split
    · next ready =>
      rw [same] at ready
      rw [Run.yields_bind, List.filter_cons_of_pos ready,
        List.filter_cons_of_neg (by simpa using ready)]
      refine (resolveLink_yields_after hl ready hr k).mono ?_ fun _ _ h => h
      rintro t st₁ ⟨learned, resolves⟩
      refine (ih sub (p := { p with tuples := p.tuples.insert l.ownerIndex t }) hr
        (sound.insert hl resolves) learned.knows).mono ?_ ?_
      · rintro p' st₂ ⟨learned', passed⟩
        exact ⟨learned.trans learned', passed.cons⟩
      · rintro e st₂ ⟨learned', unresolved⟩
        exact ⟨learned.trans learned', unresolved⟩
    · next waits =>
      rw [same] at waits
      rw [List.filter_cons_of_neg waits, List.filter_cons_of_pos (by simpa using waits)]
      have hr' : p.registry.defer l =
          { registryAfter d r cs with pending := (p.registry.defer l).pending } := by
        rw [Registry.defer, hr]
      refine (ih sub (p := { p with registry := p.registry.defer l }) hr' sound k).mono ?_
        fun _ _ h => h
      rintro p' st₁ ⟨learned, passed⟩
      refine ⟨learned, ?_, passed.view, passed.created, passed.sound, passed.resolved, passed.kept⟩
      rw [passed.registry, Registry.defer]
      simp

/-! ## One creation after the other -/

/-- Where a run stands after the creations `cs`, with the document `e`. -/
structure Reached (d : Document α) (view : Option ViewRef) (rules : LinkRules) (plan : Plan α)
    (r : Registry) (s : Surroundings) (cs : List Creation) (p : Progress) (e : Document α) :
    Prop where
  grown : d.Grown view cs e
  view : p.view = d.openedView view cs
  created : p.created = d.made cs
  registry : p.registry = { registryAfter d r cs with pending := p.registry.pending }
  queued : ∀ l ∈ p.registry.pending,
    l ∈ plan.links ∧ (registryAfter d r cs).isResolvable l = false
  settled : ∀ l ∈ plan.links, l ∈ p.registry.pending ∨ p.tuples.contains l.ownerIndex = true
  sound : Sound d rules plan r s cs p.tuples

/-- Why the creations `all` stop half way, and the document they leave. -/
inductive Stopped (d : Document α) (view : Option ViewRef) (rules : LinkRules) (plan : Plan α)
    (r : Registry) (s : Surroundings) (all : List Creation) : CompileError → Document α → Prop
  | refused (cs : List Creation) (c : Creation) (rest : List Creation) (e : Document α)
      (step : FailedStep) (message : String) (spent : Bool) : all = cs ++ c :: rest →
      d.Grown view cs e → ¬ e.Creatable (d.openedView view cs) c → Stopped d view rules plan r s all
        (.collaboratorFailure step message (d.made cs))
        { e with createCalls := e.createCalls + 1, overflowed := spent }
  | unresolved (cs rest : List Creation) (err : CompileError) (e : Document α) :
      all = cs ++ rest → cs ≠ [] → d.Grown view cs e → Unresolved d rules plan r s cs →
      Stopped d view rules plan r s all err e

variable {view : Option ViewRef}

/-- A pass over the links `ls` that resolves those it can and leaves the others queued. -/
theorem Passed.reached {ls : List PendingLink} {p p' : Progress} {e : Document α}
    (passed : Passed d rules plan r s cs (ls.filter (registryAfter d r cs).isResolvable)
      (ls.filter fun l => !(registryAfter d r cs).isResolvable l) p p')
    (sub : ∀ l ∈ ls, l ∈ plan.links)
    (before : ∀ l ∈ plan.links, l ∈ ls ∨ p.tuples.contains l.ownerIndex = true)
    (grown : d.Grown view cs e) (hr : ∃ q, p.registry = { registryAfter d r cs with pending := q })
    (hv : p.view = d.openedView view cs) (hc : p.created = d.made cs) :
    Reached d view rules plan r s cs p' e where
  grown := grown
  view := passed.view.trans hv
  created := passed.created.trans hc
  registry := by
    obtain ⟨q, hr⟩ := hr
    rw [passed.registry, hr]
  queued := by
    intro l hl
    rw [passed.registry, List.mem_filter] at hl
    exact ⟨sub l hl.1, by simpa using hl.2⟩
  settled := by
    intro l hl
    rcases before l hl with waiting | done
    · by_cases ready : (registryAfter d r cs).isResolvable l = true
      · exact .inr (passed.resolved l (List.mem_filter.2 ⟨waiting, ready⟩))
      · rw [passed.registry]
        exact .inl (List.mem_filter.2 ⟨waiting, by simpa using ready⟩)
    · exact .inr (passed.kept _ done)
  sound := passed.sound

theorem resolveOrDefer_reaches (none : r.pending = []) {st : Schooled (Document α)}
    (k : LinkCheck.Knows d.tables st) (read : d.OnlyRead st.engine) :
    (resolveOrDefer Document.client rules plan s plan.links ⟨r, view, [], ∅⟩).Yields st
      (fun p st' => LinkCheck.Learns d.tables st st' ∧
        Reached d view rules plan r s [] p st'.engine)
      (fun _ st' => LinkCheck.Learns d.tables st st' ∧ Unresolved d rules plan r s []) := by
  have sound : Sound d rules plan r s [] ∅ := sound_empty
  refine (resolveOrDefer_yields (p := ⟨r, view, [], ∅⟩) plan.links (fun _ h => h) rfl sound k).mono
    ?_ fun _ _ h => h
  rintro p st' ⟨learned, passed⟩
  rw [none, List.nil_append] at passed
  have grown := (d.grown_nil view).read (read.trans learned.read)
  exact ⟨learned, passed.reached (fun _ h => h) (fun _ h => .inl h) grown ⟨_, rfl⟩ rfl rfl⟩

theorem create_yields {c : Creation} {p : Progress} {st : Schooled (Document α)}
    (h : Reached d view rules plan r s cs p st.engine) (k : LinkCheck.Knows d.tables st) :
    (create Document.client c p).Yields st
      (fun p' st' => LinkCheck.Knows d.tables st' ∧ d.Grown view (cs ++ [c]) st'.engine ∧
        p'.registry = { registryAfter d r (cs ++ [c]) with pending := p.registry.pending } ∧
        p'.view = d.openedView view (cs ++ [c]) ∧ p'.created = d.made (cs ++ [c]) ∧
        p'.tuples = p.tuples)
      (fun err st' => ¬ st.engine.Creatable (d.openedView view cs) c ∧
        (∃ spent, st'.engine =
          { st.engine with createCalls := st.engine.createCalls + 1, overflowed := spent }) ∧
        ∃ step message, err = .collaboratorFailure step message (d.made cs)) := by
  unfold create
  rw [Run.yields_bind, Run.yields_adapt, LinkRun.ask, Run.yields_ofReply]
  simp only [Document.client, h.view]
  by_cases can : st.engine.Creatable (d.openedView view cs) c
  · obtain ⟨w, e', run, grown, rfl⟩ := h.grown.create can
    rw [run]
    refine ⟨⟨?_, k.columns, k.lineage⟩, grown, ?_, ?_, ?_, rfl⟩
    · exact grown.tables
    · rw [registryAfter_concat, h.registry]
      rfl
    · rw [d.openedView_concat]
      cases cs with
      | nil => cases view <;> rfl
      | cons _ _ => rfl
    · rw [d.made_concat, h.created]
  · obtain ⟨f, spent, run⟩ := Document.createWidget_of_not_creatable can
    rw [run]
    refine ⟨can, ⟨spent, rfl⟩, .createWidget c.paneIndex c.table, f.message, ?_⟩
    rw [h.created]
    rfl

theorem resolveDrained_reaches {p p₁ : Progress} {e : Document α} {c : Creation}
    (h : Reached d view rules plan r s cs p e) {st : Schooled (Document α)}
    (k : LinkCheck.Knows d.tables st) (grown : d.Grown view (cs ++ [c]) st.engine)
    (hr : p₁.registry = { registryAfter d r (cs ++ [c]) with pending := p.registry.pending })
    (hv : p₁.view = d.openedView view (cs ++ [c])) (hc : p₁.created = d.made (cs ++ [c]))
    (ht : p₁.tuples = p.tuples) :
    (resolveDrained Document.client rules plan s p₁.registry.drain.1
      { p₁ with registry := p₁.registry.drain.2 }).Yields st
      (fun p' st' => LinkCheck.Knows d.tables st' ∧
        Reached d view rules plan r s (cs ++ [c]) p' st'.engine)
      (fun _ st' => d.Grown view (cs ++ [c]) st'.engine ∧
        Unresolved d rules plan r s (cs ++ [c])) := by
  have ready : p₁.registry.isResolvable = (registryAfter d r (cs ++ [c])).isResolvable := by
    funext l
    rw [hr, Registry.isResolvable_pending]
  have drained : p₁.registry.drain.1 =
      p.registry.pending.filter (registryAfter d r (cs ++ [c])).isResolvable := by
    rw [Registry.drain, ready, hr]
  have left : p₁.registry.drain.2 = { registryAfter d r (cs ++ [c]) with
      pending := p.registry.pending.filter
        fun l => !(registryAfter d r (cs ++ [c])).isResolvable l } := by
    rw [Registry.drain, ready, hr]
  have sub : ∀ l ∈ p.registry.pending, l ∈ plan.links := fun l hl => (h.queued l hl).1
  have sound : Sound d rules plan r s (cs ++ [c]) p₁.tuples := by
    rw [ht]
    exact h.sound.mono (List.prefix_append cs [c])
  let p₂ : Progress := { p₁ with registry := { registryAfter d r (cs ++ [c]) with
    pending := p.registry.pending.filter fun l => !(registryAfter d r (cs ++ [c])).isResolvable l } }
  rw [drained, left]
  refine (resolveDrained_yields (p := p₂) _ ?_ rfl sound k).mono ?_ ?_
  · intro l hl
    obtain ⟨queued, now⟩ := List.mem_filter.1 hl
    exact ⟨sub l queued, now⟩
  · rintro p' st' ⟨learned, passed⟩
    refine ⟨learned.knows, passed.reached sub ?_ (grown.read learned.read) ⟨_, rfl⟩ hv hc⟩
    intro l hl
    rw [ht]
    exact h.settled l hl
  · rintro err st' ⟨learned, unresolved⟩
    exact ⟨grown.read learned.read, unresolved⟩

/-- The creations are all made, or the run stops at one of them or at a link after it. -/
theorem createAll_yields (cs rest : List Creation) {p : Progress} {st : Schooled (Document α)}
    (h : Reached d view rules plan r s cs p st.engine) (k : LinkCheck.Knows d.tables st) :
    (createAll Document.client rules plan s rest p).Yields st
      (fun p' st' => Reached d view rules plan r s (cs ++ rest) p' st'.engine)
      (fun err st' => Stopped d view rules plan r s (cs ++ rest) err st'.engine) := by
  induction rest generalizing cs p st with
  | nil =>
    rw [List.append_nil]
    exact h
  | cons c rest ih =>
    unfold createAll
    rw [Run.yields_bind]
    refine (create_yields h k).mono ?_ ?_
    · rintro p₁ st₁ ⟨k₁, grown, hr, hv, hc, ht⟩
      dsimp only
      rw [Run.yields_bind]
      refine (resolveDrained_reaches h k₁ grown hr hv hc ht).mono ?_ ?_
      · rintro p₂ st₂ ⟨k₂, h₂⟩
        have rest_yields := ih (cs ++ [c]) h₂ k₂
        rw [List.append_assoc] at rest_yields
        exact rest_yields
      · rintro err st₂ ⟨grown₂, unresolved⟩
        exact .unresolved (cs ++ [c]) rest err _ (by simp) (by simp) grown₂ unresolved
    · rintro err st₁ ⟨cannot, ⟨spent, he⟩, step, message, rfl⟩
      rw [he]
      exact .refused cs c rest st.engine step message spent rfl h.grown cannot

end PaneLayout.Compile
