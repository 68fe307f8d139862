import Mathlib.Data.List.Nodup
import PaneLayout.Proofs.Outcome
import PaneLayout.Proofs.Steady

set_option autoImplicit false

/-!
# Links on any client

The loop that creates the new panes of a plan, on a client that may answer anything. `xs` are the
sections it has given out, in order. The queue then holds the links of the plan that cannot be
resolved in `r.given xs`, and the others have tuples. As long as the client does not hand out a
section twice, or one that was known before, these are the tuples that the links still resolve to.
-/

namespace PaneLayout

variable {α σ : Type}

/-! ## One link -/

namespace Registry

variable {r : Registry} {xs ys : List (PlaceholderId × SectionId)}

/-- The sections are given once each to placeholders of their own, and none of them was known. -/
structure Fresh (r : Registry) (xs : List (PlaceholderId × SectionId)) : Prop where
  placeholders : (xs.map (·.1)).Nodup
  sections : (xs.map (·.2)).Nodup
  unknown : ∀ id ∈ xs.map (·.2), id ∉ r.known

/-- As long as no placeholder is given two sections, those that are still to come have none. -/
theorem unused_of_nodup (blank : r.resolved = ∅) (placeholders : ((xs ++ ys).map (·.1)).Nodup) :
    ∀ p ∈ ys.map (·.1), (r.given xs).resolved.get? p = none := by
  intro p hp
  rw [List.map_append, List.nodup_append] at placeholders
  have apart : p ∉ xs.map (·.1) := fun before => placeholders.2.2 p before p hp rfl
  rw [resolved_given, SortedMap.get?_insertAll_of_notMem apart, blank]
  rfl

/-- What a link that can be resolved denotes does not change while fresh sections are given out. -/
theorem Fresh.denotes (blank : r.resolved = ∅) (h : r.Fresh (xs ++ ys)) {l : PendingLink}
    (ready : (r.given xs).isResolvable l = true) :
    (r.given (xs ++ ys)).lookupTarget l.target = (r.given xs).lookupTarget l.target ∧
    (r.given (xs ++ ys)).targetPane? l.target = (r.given xs).targetPane? l.target := by
  have unused := unused_of_nodup blank h.placeholders
  rw [isResolvable, Bool.and_eq_true] at ready
  obtain ⟨id, hid⟩ := Option.isSome_iff_exists.1 ready.2
  rw [given_append]
  refine ⟨(lookupTarget_given unused hid).trans hid.symm, ?_⟩
  cases ht : l.target with
  | name key => simp only [targetPane?, names_given]
  | id n =>
    apply targetPane?_id_given unused
    rw [ht] at hid
    have known := (lookupTarget_id hid).2
    rw [mem_known_given] at known
    have sections := h.sections
    have unknown := h.unknown
    rw [List.map_append] at sections unknown
    intro hn
    rcases known with known | before
    · exact unknown n (List.mem_append_right _ hn) known
    · exact (List.nodup_append.1 sections).2.2 n before n hn rfl

end Registry

namespace Compile

theorem resolveLink_congr (client : Client α σ) (rules : LinkRules) (plan : Plan α)
    (s : Surroundings) {r r' : Registry} {l : PendingLink}
    (source : r.lookupTarget l.target = r'.lookupTarget l.target)
    (pane : r.targetPane? l.target = r'.targetPane? l.target) :
    resolveLink client rules plan r s l = resolveLink client rules plan r' s l := by
  have ends : s.ends r l = s.ends r' l := by
    rw [s.ends_eq_bind, s.ends_eq_bind]
    unfold Surroundings.sourceTable?
    rw [pane]
  unfold resolveLink
  rw [source, ends]

theorem resolveLink_pending (client : Client α σ) (rules : LinkRules) (plan : Plan α)
    (s : Surroundings) (r : Registry) (q : List PendingLink) (l : PendingLink) :
    resolveLink client rules plan { r with pending := q } s l =
      resolveLink client rules plan r s l :=
  resolveLink_congr client rules plan s (Registry.lookupTarget_pending q _)
    (Registry.targetPane?_pending q _)

section
variable (client : Client α σ) (rules : LinkRules) (plan : Plan α) (s : Surroundings)

/-- From the state `st` on the link resolves to `t`, and nothing is asked for it. -/
def Settles (r : Registry) (st : Schooled σ) (l : PendingLink) (t : LinkTuple) : Prop :=
  ∀ u, st.Extends u → (resolveLink client rules plan r s l).start u = (.ok t, u)

/-- What resolving the links `ls` makes of the tuples. -/
structure Pass (r : Registry) (ls : List PendingLink) (before after : SortedMap Nat LinkTuple)
    (st : Schooled σ) : Prop where
  keys : ∀ i, after.contains i = true ↔ before.contains i = true ∨ ∃ l ∈ ls, l.ownerIndex = i
  entries : ∀ i t, after.get? i = some t → before.get? i = some t ∨
    ∃ l ∈ ls, l.ownerIndex = i ∧ Settles client rules plan s r st l t

/-- The link could be resolved once some first ones of the sections `xs` were given out, and then got
the tuple `t`. -/
def Drawn (r : Registry) (xs : List (PlaceholderId × SectionId)) (st : Schooled σ)
    (l : PendingLink) (t : LinkTuple) : Prop :=
  ∃ ys, ys <+: xs ∧ (r.given ys).isResolvable l = true ∧
    Settles client rules plan s (r.given ys) st l t

/-- Where a run stands once the sections `xs` are given out. -/
structure Standing (r : Registry) (xs : List (PlaceholderId × SectionId)) (p : Progress)
    (st : Schooled σ) : Prop where
  registry : p.registry =
    { r.given xs with pending := plan.links.filter fun l => !(r.given xs).isResolvable l }
  created : p.created.map (·.id) = xs.map (·.2)
  keys : ∀ i, p.tuples.contains i = true ↔
    ∃ l ∈ plan.links, (r.given xs).isResolvable l = true ∧ l.ownerIndex = i
  drawn : ∀ l ∈ plan.links, ∀ t, p.tuples.get? l.ownerIndex = some t →
    Drawn client rules plan s r xs st l t

end

variable {client : Client α σ} {rules : LinkRules} {plan : Plan α} {s : Surroundings}
  {r : Registry} {xs ys : List (PlaceholderId × SectionId)} {st st' : Schooled σ}

theorem Settles.mono {l : PendingLink} {t : LinkTuple}
    (h : Settles client rules plan s r st l t) (more : st.Extends st') :
    Settles client rules plan s r st' l t := fun u hu => h u (more.trans hu)

theorem Settles.given {l : PendingLink} {t : LinkTuple}
    (h : Settles client rules plan s (r.given xs) st l t) (blank : r.resolved = ∅)
    (fresh : r.Fresh (xs ++ ys)) (ready : (r.given xs).isResolvable l = true) :
    Settles client rules plan s (r.given (xs ++ ys)) st l t := by
  obtain ⟨source, pane⟩ := fresh.denotes blank ready
  intro u hu
  rw [resolveLink_congr client rules plan s source pane]
  exact h u hu

theorem Drawn.mono {l : PendingLink} {t : LinkTuple} (h : Drawn client rules plan s r xs st l t)
    (le : xs <+: ys) (more : st.Extends st') : Drawn client rules plan s r ys st' l t := by
  obtain ⟨zs, before, ready, settles⟩ := h
  exact ⟨zs, before.trans le, ready, settles.mono more⟩

/-- As long as fresh sections are given out, a link would get the tuple that it got. -/
theorem Standing.settled {p : Progress} (h : Standing client rules plan s r xs p st)
    (blank : r.resolved = ∅) (fresh : r.Fresh xs) {l : PendingLink} (hl : l ∈ plan.links)
    {t : LinkTuple} (ht : p.tuples.get? l.ownerIndex = some t) :
    Settles client rules plan s (r.given xs) st l t := by
  obtain ⟨ys, ⟨zs, rfl⟩, ready, settles⟩ := h.drawn l hl t ht
  exact settles.given blank fresh ready

theorem resolveLink_settles {r' : Registry} (hr : r' = { r with pending := r'.pending })
    (l : PendingLink) (st : Schooled σ) : (resolveLink client rules plan r' s l).Yields st
      (fun t st' => st.Extends st' ∧ Settles client rules plan s r st' l t) fun _ _ => True := by
  rw [hr, resolveLink_pending]
  exact resolveLink_steady client rules plan r s l st

/-! ## Several links -/

theorem Pass.nil (before : SortedMap Nat LinkTuple) (st : Schooled σ) :
    Pass client rules plan s r [] before before st where
  keys i := by simp
  entries i t ht := .inl ht

theorem Pass.cons {l : PendingLink} {ls : List PendingLink} {t : LinkTuple}
    {before after : SortedMap Nat LinkTuple} (here : Settles client rules plan s r st l t)
    (more : st.Extends st')
    (rest : Pass client rules plan s r ls (before.insert l.ownerIndex t) after st') :
    Pass client rules plan s r (l :: ls) before after st' where
  keys i := by
    rw [rest.keys, SortedMap.contains_insert, Bool.or_eq_true, decide_eq_true_eq,
      List.exists_mem_cons_iff, eq_comm (a := i), or_assoc, or_left_comm]
  entries i u hu := by
    rcases rest.entries i u hu with old | ⟨l', hl', at_i, settles⟩
    · rw [SortedMap.get?_insert] at old
      split at old
      · next same =>
        obtain rfl := Option.some.inj old
        exact .inr ⟨l, List.mem_cons_self, same.symm, here.mono more⟩
      · exact .inl old
    · exact .inr ⟨l', List.mem_cons_of_mem l hl', at_i, settles⟩

theorem resolveDrained_passes (ls : List PendingLink) {p : Progress}
    (hr : p.registry = { r with pending := p.registry.pending }) (st : Schooled σ) :
    (resolveDrained client rules plan s ls p).Yields st
      (fun p' st' => st.Extends st' ∧ p' = { p with tuples := p'.tuples } ∧
        Pass client rules plan s r ls p.tuples p'.tuples st') fun _ _ => True := by
  induction ls generalizing p st with
  | nil => exact ⟨.refl st, rfl, .nil p.tuples st⟩
  | cons l ls ih =>
    unfold resolveDrained
    rw [Run.yields_bind, Run.yields_adapt]
    refine (resolveLink_settles hr l st).mono ?_ fun _ _ => id
    rintro t st₁ ⟨more, settles⟩
    refine (ih (p := { p with tuples := p.tuples.insert l.ownerIndex t }) hr st₁).mono ?_
      fun _ _ => id
    rintro p' st₂ ⟨more', same, pass⟩
    exact ⟨more.trans more', same, .cons settles more' pass⟩

theorem resolveOrDefer_passes (ls : List PendingLink) {p : Progress}
    (hr : p.registry = { r with pending := p.registry.pending }) (st : Schooled σ) :
    (resolveOrDefer client rules plan s ls p).Yields st
      (fun p' st' => st.Extends st' ∧
        p' = { p with
          registry := { r with
            pending := p.registry.pending ++ ls.filter fun l => !r.isResolvable l }
          tuples := p'.tuples } ∧
        Pass client rules plan s r (ls.filter r.isResolvable) p.tuples p'.tuples st')
      fun _ _ => True := by
  induction ls generalizing p st with
  | nil =>
    refine ⟨.refl st, ?_, .nil p.tuples st⟩
    rw [List.filter_nil, List.append_nil, ← hr]
  | cons l ls ih =>
    have same : p.registry.isResolvable l = r.isResolvable l := by
      rw [hr, Registry.isResolvable_pending]
    unfold resolveOrDefer
    rw [same]
    by_cases ready : r.isResolvable l = true
    · rw [if_pos ready, Run.yields_bind, List.filter_cons_of_pos ready,
        List.filter_cons_of_neg (by simpa using ready)]
      refine (resolveLink_settles hr l st).mono ?_ fun _ _ => id
      rintro t st₁ ⟨more, settles⟩
      refine (ih (p := { p with tuples := p.tuples.insert l.ownerIndex t }) hr st₁).mono ?_
        fun _ _ => id
      rintro p' st₂ ⟨more', after, pass⟩
      exact ⟨more.trans more', after, .cons settles more' pass⟩
    · rw [if_neg ready, List.filter_cons_of_neg ready, List.filter_cons_of_pos (by simpa using ready)]
      have hr' : p.registry.defer l = { r with pending := (p.registry.defer l).pending } := by
        rw [Registry.defer, hr]
      refine (ih (p := { p with registry := p.registry.defer l }) hr' st).mono ?_ fun _ _ => id
      rintro p' st₁ ⟨more, after, pass⟩
      refine ⟨more, ?_, pass⟩
      rw [Registry.defer] at after
      simpa using after

/-! ## One creation after the other -/

/-- A pass over links that can be resolved now, the others having been resolved before. -/
theorem Pass.stands {ls : List PendingLink} {before : SortedMap Nat LinkTuple} {p : Progress}
    (owners : (plan.links.map (·.ownerIndex)).Nodup)
    (pass : Pass client rules plan s (r.given xs) ls before p.tuples st)
    (sub : ∀ l ∈ ls, l ∈ plan.links ∧ (r.given xs).isResolvable l = true)
    (done : ∀ i, before.contains i = true →
      ∃ l ∈ plan.links, (r.given xs).isResolvable l = true ∧ l.ownerIndex = i)
    (all : ∀ l ∈ plan.links, (r.given xs).isResolvable l = true →
      l ∈ ls ∨ before.contains l.ownerIndex = true)
    (drawn : ∀ l ∈ plan.links, ∀ t, before.get? l.ownerIndex = some t →
      Drawn client rules plan s r xs st l t)
    (registry : p.registry =
      { r.given xs with pending := plan.links.filter fun l => !(r.given xs).isResolvable l })
    (created : p.created.map (·.id) = xs.map (·.2)) :
    Standing client rules plan s r xs p st where
  registry := registry
  created := created
  keys i := by
    rw [pass.keys]
    constructor
    · rintro (old | ⟨l, hl, at_i⟩)
      · exact done i old
      · exact ⟨l, (sub l hl).1, (sub l hl).2, at_i⟩
    · rintro ⟨l, hl, ready, rfl⟩
      exact (all l hl ready).symm.imp_right fun now => ⟨l, now, rfl⟩
  drawn l hl t ht := by
    rcases pass.entries l.ownerIndex t ht with old | ⟨l', hl', same, settles⟩
    · exact drawn l hl t old
    · obtain rfl := List.inj_on_of_nodup_map owners (sub l' hl').1 hl same
      exact ⟨xs, List.prefix_rfl, (sub l' hl').2, settles⟩

theorem resolveOrDefer_stands (owners : (plan.links.map (·.ownerIndex)).Nodup)
    (idle : r.pending = []) (view : Option ViewRef) (st : Schooled σ) :
    (resolveOrDefer client rules plan s plan.links ⟨r, view, [], ∅⟩).Yields st
      (fun p st' => Standing client rules plan s r [] p st') fun _ _ => True := by
  refine (resolveOrDefer_passes (p := ⟨r, view, [], ∅⟩) plan.links rfl st).mono ?_ fun _ _ => id
  rintro p st' ⟨-, after, pass⟩
  rw [after]
  have start : Pass client rules plan s (r.given []) _ _ _ _ := pass
  refine start.stands owners ?_ ?_ ?_ ?_ ?_ rfl
  · exact fun l hl => List.mem_filter.1 hl
  · exact fun i hi => by cases hi
  · exact fun l hl ready => .inl (List.mem_filter.2 ⟨hl, ready⟩)
  · exact fun l _ t ht => by cases ht
  · simp only [idle, List.nil_append]
    rfl

theorem create_made (c : Creation) (p : Progress) (st : Schooled σ) :
    (create client c p).Yields st
      (fun p' st' => st.Extends st' ∧ ∃ w : CreatedWidget, p' = {
        registry := p.registry.resolve c.placeholder w.id
        view := p.view <|> some w.view
        created := p.created ++ [.create w.id c.table c.type]
        tuples := p.tuples }) fun _ _ => True := by
  unfold create
  rw [Run.yields_bind, Run.yields_adapt, LinkRun.yields_ask]
  rcases client.createWidget c.table c.type p.view st.engine with ⟨_ | w, e⟩
  · trivial
  · exact ⟨.of_engine st e, w, rfl⟩

/-- A section that is given out takes from the queue the links that it makes resolvable. -/
theorem drain_resolve {q : Registry} {ls : List PendingLink}
    (queue : q = { r.given xs with pending := ls.filter fun l => !(r.given xs).isResolvable l })
    (ph : PlaceholderId) (id : SectionId) : (q.resolve ph id).drain =
      ((ls.filter fun l => !(r.given xs).isResolvable l).filter
          (r.given (xs ++ [(ph, id)])).isResolvable,
        { r.given (xs ++ [(ph, id)]) with
          pending := ls.filter fun l => !(r.given (xs ++ [(ph, id)])).isResolvable l }) := by
  let now := r.given (xs ++ [(ph, id)])
  have given : q.resolve ph id =
      { now with pending := ls.filter fun l => !(r.given xs).isResolvable l } := by
    rw [queue]
    simp only [now, Registry.given_concat]
    rfl
  have same : Registry.isResolvable
      { now with pending := ls.filter fun l => !(r.given xs).isResolvable l } =
      now.isResolvable := funext (Registry.isResolvable_pending _)
  rw [given, Registry.drain, same, List.filter_filter (l := ls) (p := fun l => !now.isResolvable l)]
  congr 3
  funext l
  cases before : (r.given xs).isResolvable l with
  | false => simp [now]
  | true => simp [now, Registry.given_append, (Registry.grows_given _ _).isResolvable before]

theorem resolveDrained_stands (owners : (plan.links.map (·.ownerIndex)).Nodup) {p : Progress}
    (h : Standing client rules plan s r xs p st) (c : Creation) (w : CreatedWidget)
    (view : Option ViewRef) (more : st.Extends st') :
    (resolveDrained client rules plan s (p.registry.resolve c.placeholder w.id).drain.1 {
      registry := (p.registry.resolve c.placeholder w.id).drain.2
      view := view
      created := p.created ++ [.create w.id c.table c.type]
      tuples := p.tuples }).Yields st'
      (fun p' st'' => Standing client rules plan s r (xs ++ [(c.placeholder, w.id)]) p' st'')
      fun _ _ => True := by
  have stays {l : PendingLink} (ready : (r.given xs).isResolvable l = true) :
      (r.given (xs ++ [(c.placeholder, w.id)])).isResolvable l = true := by
    rw [Registry.given_append]
    exact (Registry.grows_given _ _).isResolvable ready
  rw [drain_resolve h.registry]
  dsimp only
  refine (resolveDrained_passes (r := r.given (xs ++ [(c.placeholder, w.id)])) _ rfl st').mono ?_
    fun _ _ => id
  rintro p' st'' ⟨more', after, pass⟩
  rw [after]
  refine pass.stands owners ?_ ?_ ?_ ?_ rfl ?_
  · intro l hl
    rw [List.mem_filter, List.mem_filter] at hl
    exact ⟨hl.1.1, hl.2⟩
  · intro i hi
    obtain ⟨l, hl, ready, at_i⟩ := (h.keys i).1 hi
    exact ⟨l, hl, stays ready, at_i⟩
  · intro l hl ready
    by_cases before : (r.given xs).isResolvable l = true
    · exact .inr ((h.keys _).2 ⟨l, hl, before, rfl⟩)
    · exact .inl (List.mem_filter.2 ⟨List.mem_filter.2 ⟨hl, by simpa using before⟩, ready⟩)
  · intro l hl t ht
    exact (h.drawn l hl t ht).mono (List.prefix_append _ _) (more.trans more')
  · simp [h.created, WidgetInfo.create]

/-- Every creation gives out one section, to the placeholder of its pane. -/
theorem createAll_stands (owners : (plan.links.map (·.ownerIndex)).Nodup) (cs : List Creation)
    {p : Progress} (h : Standing client rules plan s r xs p st) :
    (createAll client rules plan s cs p).Yields st
      (fun p' st' => ∃ ys, ys.map (·.1) = cs.map (·.placeholder) ∧
        Standing client rules plan s r (xs ++ ys) p' st') fun _ _ => True := by
  induction cs generalizing xs p st with
  | nil => exact ⟨[], rfl, by rwa [List.append_nil]⟩
  | cons c cs ih =>
    unfold createAll
    rw [Run.yields_bind]
    refine (create_made c p st).mono ?_ fun _ _ => id
    rintro p₁ st₁ ⟨more, w, rfl⟩
    dsimp only
    rw [Run.yields_bind]
    refine (resolveDrained_stands owners h c w _ more).mono ?_ fun _ _ => id
    rintro p₂ st₂ h₂
    refine (ih h₂).mono ?_ fun _ _ => id
    rintro p' st' ⟨ys, hys, h'⟩
    rw [List.append_assoc] at h'
    exact ⟨(c.placeholder, w.id) :: ys, by rw [List.map_cons, List.map_cons, hys], h'⟩

/-! ## Known sections -/

theorem fetchPanes_known (ps : List PanePlan) (s : Surroundings) (st : Schooled σ) :
    (fetchPanes client ps s).Yields st
      (fun x _ => x.2 = [] → ∀ id, x.1.widgets.contains id = true ↔
        s.widgets.contains id = true ∨ ∃ p ∈ ps, p.ref = .real id)
      fun _ _ => True := by
  induction ps generalizing s st with
  | nil => exact fun _ id => by simp
  | cons p ps ih =>
    unfold fetchPanes
    cases hp : p.ref with
    | placeholder q =>
      refine (ih { s with paneTables := s.paneTables ++ [p.table] } st).mono ?_ fun _ _ => id
      intro x _ known full id
      rw [known full, List.exists_mem_cons_iff, hp]
      simp
    | real n =>
      dsimp only
      rw [Run.yields_bind, fetch, LinkRun.yields_ask]
      rcases client.fetchWidget n st.engine with ⟨_ | _ | w, e⟩
      · trivial
      · dsimp only
        rw [Run.yields_bind]
        refine (ih { s with paneTables := s.paneTables ++ [p.table] } _).mono ?_ fun _ _ => id
        exact fun x _ _ full => absurd full (List.cons_ne_nil _ _)
      · refine (ih ⟨s.paneTables ++ [some w.table], s.widgets.insert n w⟩ _).mono ?_ fun _ _ => id
        intro x _ known full id
        rw [known full, List.exists_mem_cons_iff, hp, SortedMap.contains_insert]
        simp only [PaneRef.real.injEq]
        grind

theorem fetchTargets_known (ls : List PendingLink) (r : Registry)
    (ws : SortedMap SectionId WidgetInfo) (known : ∀ id, id ∈ r.known ↔ ws.contains id = true)
    (st : Schooled σ) : (fetchTargets client ls r ws).Yields st
      (fun x _ => x.1 = { r with known := x.1.known } ∧ r.known ⊆ x.1.known ∧
        ∀ id, id ∈ x.1.known ↔ x.2.contains id = true)
      fun _ _ => True := by
  induction ls generalizing r ws st with
  | nil => exact ⟨rfl, fun _ => id, known⟩
  | cons l ls ih =>
    unfold fetchTargets
    cases l.target with
    | name key => exact ih r ws known st
    | id n =>
      dsimp only
      split
      · exact ih r ws known st
      · rw [Run.yields_bind, fetch, LinkRun.yields_ask]
        rcases client.fetchWidget n st.engine with ⟨_ | _ | w, e⟩
        · trivial
        · exact ih r ws known _
        · have now : ∀ id, id ∈ (r.markKnown n).known ↔ (ws.insert n w).contains id = true := by
            intro id
            rw [Registry.markKnown, List.mem_cons, known, SortedMap.contains_insert]
            grind
          refine (ih (r.markKnown n) (ws.insert n w) now _).mono ?_ fun _ _ => id
          rintro x _ ⟨same, more, found⟩
          exact ⟨same, List.Subset.trans (List.subset_cons_self n r.known) more, found⟩

section
variable [Scalar α] {tables : TableMap} {t : Layout α}

/-- The known sections are the widgets that have been fetched, those of the panes among them. -/
theorem survey_known (draws : plan.Draws tables t) (st : Schooled σ) :
    (survey client rules plan).Yields st
      (fun x _ => x.1 = { plan.registry with known := x.1.known } ∧
        plan.registry.known ⊆ x.1.known ∧
        ∀ id, id ∈ x.1.known ↔ x.2.widgets.contains id = true) fun _ _ => True := by
  unfold survey
  rw [Run.yields_bind]
  refine (fetchPanes_known plan.panes ⟨[], ∅⟩ st).mono ?_ fun _ _ => id
  rintro ⟨s, missing⟩ st₁ fetched
  dsimp only at fetched ⊢
  split
  · trivial
  · next full =>
    have known : ∀ id, id ∈ plan.registry.known ↔ s.widgets.contains id = true := by
      intro id
      rw [draws.known_iff, fetched (by simpa using full)]
      exact (or_iff_right Bool.false_ne_true).symm
    rw [Run.yields_bind]
    refine (fetchTargets_known plan.links plan.registry s.widgets known st₁).mono ?_ fun _ _ => id
    rintro ⟨r, ws⟩ st₂ found
    dsimp only
    rw [Run.yields_bind]
    refine (Run.yields_trivial _ st₂).mono ?_ fun _ _ => id
    rintro - st₃ -
    exact found

/-! ## The whole loop -/

/-- A run past its last creation: the plan `plan` of the layout `t`, after the survey has ended in
the registry `r`, and after the sections `xs` have been given out. -/
structure Populated (client : Client α σ) (config : CompilerConfig) (request : LayoutRequest α)
    (t : Layout α) (plan : Plan α) (r : Registry) (s : Surroundings)
    (xs : List (PlaceholderId × SectionId)) (p : Progress) (st : Schooled σ) : Prop where
  layout : request.layout = some t
  valid : Layout.validate (some t) = []
  draws : plan.Draws request.tables t
  registry : r = { plan.registry with known := r.known }
  kept : plan.registry.known ⊆ r.known
  known : ∀ id, id ∈ r.known ↔ s.widgets.contains id = true
  placeholders : xs.map (·.1) = plan.creations.map (·.placeholder)
  standing : Standing client (.ofConfig request.tables config) plan s r xs p st

theorem Populated.blank {config : CompilerConfig} {request : LayoutRequest α} {p : Progress}
    (h : Populated client config request t plan r s xs p st) : r.resolved = ∅ := by
  rw [h.registry]
  exact h.draws.resolved

theorem populate_stands (client : Client α σ) (config : CompilerConfig)
    (request : LayoutRequest α) (st : Schooled σ) : (populate client config request).Yields st
      (fun x st' => ∃ t r xs, Populated client config request t x.1 r x.2.1 xs x.2.2 st')
      fun _ _ => True := by
  unfold populate
  rw [Run.yields_bind, yields_liftExcept]
  cases hm : Plan.make request.layout request.tables with
  | error e => trivial
  | ok plan =>
    obtain ⟨t, layout, valid, draws⟩ := Plan.make_ok hm
    have owners := draws.owners_increasing.imp Nat.ne_of_lt
    dsimp only
    split
    · rw [Run.yields_bind]
      trivial
    rw [Run.yields_bind]
    refine (survey_known draws st).mono ?_ fun _ _ => id
    rintro ⟨r, s⟩ st₁ ⟨registry, kept, known⟩
    dsimp only at registry kept known ⊢
    have idle : r.pending = [] := by
      rw [registry]
      exact draws.pending
    rw [Run.yields_bind]
    refine (resolveOrDefer_stands owners idle request.view st₁).mono ?_ fun _ _ => id
    rintro p₁ st₂ standing₁
    rw [Run.yields_bind]
    refine (createAll_stands owners plan.creations standing₁).mono ?_ fun _ _ => id
    rintro p st₃ ⟨xs, placeholders, standing⟩
    exact ⟨t, r, xs, layout, valid, draws, registry, kept, known, placeholders, standing⟩

end

end Compile
end PaneLayout
