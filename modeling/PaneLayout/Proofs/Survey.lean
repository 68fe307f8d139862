import PaneLayout.Compile
import PaneLayout.Proofs.LinkCheck
import PaneLayout.Proofs.Plan
import PaneLayout.Proofs.Registry

set_option autoImplicit false

/-!
# Reading the surroundings of a plan

What a compilation knows of a document before it creates anything: the tables of the panes, the
widgets it has met, and that every link whose tables are known fits them.
-/

namespace PaneLayout

variable {α : Type}

def Document.Agrees (d : Document α) (ws : SortedMap SectionId WidgetInfo) : Prop :=
  ∀ id w, ws.get? id = some w → d.widget? id = some w

theorem Document.Agrees.get? {d : Document α} {ws : SortedMap SectionId WidgetInfo}
    (h : d.Agrees ws) {id : SectionId} (has : ws.contains id = true) :
    ws.get? id = d.widget? id ∧ (d.widget? id).isSome := by
  obtain ⟨w, hw⟩ := Option.isSome_iff_exists.1 has
  rw [hw, h id w hw]
  exact ⟨rfl, rfl⟩

theorem Document.Agrees.insert {d : Document α} {ws : SortedMap SectionId WidgetInfo}
    (h : d.Agrees ws) {id : SectionId} {w : WidgetInfo} (hw : d.widget? id = some w) :
    d.Agrees (ws.insert id w) := by
  intro i v hv
  rw [SortedMap.get?_insert] at hv
  split at hv
  · next e => rw [e, hw, hv]
  · exact h i v hv

/-- The table of a pane, of a real one as the document has it. -/
def PanePlan.tableIn (d : Document α) (p : PanePlan) : Option TableRef :=
  match p.ref with
  | .real id => (d.widget? id).map (·.table)
  | .placeholder _ => p.table

namespace Document

variable (d : Document α) (tables : TableMap)

/-- The table of a pane: that of its widget, or the one that a new pane names. -/
def paneTable? (p : Pane) : Option TableRef :=
  match p.section? with
  | some id => (d.widget? id).map (·.table)
  | none => p.table?.bind tables.get?

def targetTable? (ps : List Pane) : LinkTarget → Option TableRef
  | .id n => (d.widget? n).map (·.table)
  | .name key =>
    (((NameIndex.ofPanes ps).resolve key).unique?.bind (ps[·]?)).bind (d.paneTable? tables)

/-- The tables at the ends of a link of the `i`-th pane. -/
def ends? (ps : List Pane) (i : Nat) (t : LinkTarget) : Option LinkEnds := do
  let owner ← ps[i]?.bind (d.paneTable? tables)
  let source ← d.targetTable? tables ps t
  return ⟨owner, source⟩

end Document

/-- The table of a link's source, as far as it is known. -/
def Surroundings.sourceTable? (s : Surroundings) (r : Registry) (t : LinkTarget) :
    Option TableRef :=
  match r.targetPane? t with
  | some i => (s.paneTables[i]?).join
  | none => match t with
    | .id id => (s.widgets.get? id).map (·.table)
    | .name _ => none

theorem Surroundings.ends_eq_bind (s : Surroundings) (r : Registry) (l : PendingLink) :
    s.ends r l = (s.paneTables[l.ownerIndex]?).join.bind fun owner =>
      (s.sourceTable? r l.target).bind fun source => some ⟨owner, source⟩ := by
  unfold ends sourceTable?
  cases (s.paneTables[l.ownerIndex]?).join with
  | none => rfl
  | some owner =>
    cases r.targetPane? l.target with
    | some i => rfl
    | none => cases l.target <;> rfl

namespace Compile

theorem fetch_yields {id : SectionId} {st : Schooled (Document α)}
    {Q : Option WidgetInfo → Schooled (Document α) → Prop}
    {E : CompileError → Schooled (Document α) → Prop} (h : Q (st.engine.widget? id) st) :
    (fetch Document.client id).Yields st Q E := h

/-! ## Panes and link targets -/

/-- What is known after the panes `ps` have been met; `missing` lists those without a widget. -/
structure MetPanes (d : Document α) (ps : List PanePlan) (s s' : Surroundings)
    (missing : List Violation) : Prop where
  agrees : d.Agrees s'.widgets
  kept : ∀ id, s.widgets.contains id = true → s'.widgets.contains id = true
  reals : missing = [] → ∀ p ∈ ps, ∀ id, p.ref = .real id → s'.widgets.contains id = true
  only : ∀ id, s'.widgets.contains id = true → s.widgets.contains id = true ∨
    ∃ p ∈ ps, p.ref = .real id
  tables : missing = [] → s'.paneTables = s.paneTables ++ ps.map (·.tableIn d)
  absent : missing ≠ [] → ∃ p ∈ ps, ∃ id, p.ref = .real id ∧ d.widget? id = none

section
variable {d : Document α} {p : PanePlan} {ps : List PanePlan} {s s' : Surroundings}
  {missing : List Violation}

theorem MetPanes.skip {ph : PlaceholderId} (hp : p.ref = .placeholder ph)
    (m : MetPanes d ps { s with paneTables := s.paneTables ++ [p.table] } s' missing) :
    MetPanes d (p :: ps) s s' missing where
  agrees := m.agrees
  kept := m.kept
  reals := by
    intro none q hq id hid
    rcases List.mem_cons.1 hq with rfl | hq
    · rw [hp] at hid
      cases hid
    · exact m.reals none q hq id hid
  only := by
    intro id hid
    refine (m.only id hid).imp_right ?_
    rintro ⟨q, hq, real⟩
    exact ⟨q, List.mem_cons_of_mem p hq, real⟩
  tables := by
    intro none
    rw [m.tables none]
    simp [PanePlan.tableIn, hp]
  absent := by
    intro some
    obtain ⟨q, hq, absent⟩ := m.absent some
    exact ⟨q, List.mem_cons_of_mem p hq, absent⟩

theorem MetPanes.found {n : SectionId} {w : WidgetInfo} (hp : p.ref = .real n)
    (hw : d.widget? n = some w)
    (m : MetPanes d ps ⟨s.paneTables ++ [some w.table], s.widgets.insert n w⟩ s' missing) :
    MetPanes d (p :: ps) s s' missing where
  agrees := m.agrees
  kept := by
    intro id hid
    refine m.kept id ?_
    simp [SortedMap.contains_insert, hid]
  reals := by
    intro none q hq id hid
    rcases List.mem_cons.1 hq with rfl | hq
    · rw [hp, PaneRef.real.injEq] at hid
      refine m.kept id ?_
      simp [SortedMap.contains_insert, hid]
    · exact m.reals none q hq id hid
  only := by
    intro id hid
    rcases m.only id hid with hid | ⟨q, hq, real⟩
    · rw [SortedMap.contains_insert, Bool.or_eq_true, decide_eq_true_eq] at hid
      rcases hid with rfl | hid
      · exact .inr ⟨p, List.mem_cons_self, hp⟩
      · exact .inl hid
    · exact .inr ⟨q, List.mem_cons_of_mem p hq, real⟩
  tables := by
    intro none
    rw [m.tables none]
    simp [PanePlan.tableIn, hp, hw]
  absent := by
    intro some
    obtain ⟨q, hq, absent⟩ := m.absent some
    exact ⟨q, List.mem_cons_of_mem p hq, absent⟩

theorem MetPanes.lack {n : SectionId} (hp : p.ref = .real n) (hw : d.widget? n = none)
    (m : MetPanes d ps { s with paneTables := s.paneTables ++ [p.table] } s' missing)
    (v : Violation) : MetPanes d (p :: ps) s s' (v :: missing) where
  agrees := m.agrees
  kept := m.kept
  reals := fun none => by cases none
  only := by
    intro id hid
    refine (m.only id hid).imp_right ?_
    rintro ⟨q, hq, real⟩
    exact ⟨q, List.mem_cons_of_mem p hq, real⟩
  tables := fun none => by cases none
  absent := fun _ => ⟨p, List.mem_cons_self, n, hp, hw⟩

end

theorem fetchPanes_yields (ps : List PanePlan) (s : Surroundings) {st : Schooled (Document α)}
    (h : st.engine.Agrees s.widgets) :
    (fetchPanes Document.client ps s).Yields st
      (fun x st' => st' = st ∧ MetPanes st.engine ps s x.1 x.2) (fun _ _ => False) := by
  induction ps generalizing s with
  | nil => exact ⟨rfl, h, by simp, by simp, by simp, by simp, by simp⟩
  | cons p ps ih =>
    unfold fetchPanes
    split
    · next ph hp =>
      refine (ih { s with paneTables := s.paneTables ++ [p.table] } h).mono ?_ fun _ _ => id
      rintro ⟨s', missing⟩ st' ⟨rfl, m⟩
      exact ⟨rfl, m.skip hp⟩
    · next n hp =>
      rw [Run.yields_bind]
      refine fetch_yields ?_
      split
      · next w hw =>
        refine (ih ⟨s.paneTables ++ [some w.table], s.widgets.insert n w⟩ (h.insert hw)).mono ?_
          fun _ _ => id
        rintro ⟨s', missing⟩ st' ⟨rfl, m⟩
        exact ⟨rfl, m.found hp hw⟩
      · next hw =>
        rw [Run.yields_bind]
        refine (ih { s with paneTables := s.paneTables ++ [p.table] } h).mono ?_ fun _ _ => id
        rintro ⟨s', missing⟩ st' ⟨rfl, m⟩
        exact ⟨rfl, m.lack hp hw _⟩

/-- What is known after the numeric targets of the links `ls` have been met. -/
structure MetTargets (d : Document α) (ls : List PendingLink) (r : Registry)
    (ws : SortedMap SectionId WidgetInfo) (r' : Registry)
    (ws' : SortedMap SectionId WidgetInfo) : Prop where
  registry : r' = { r with known := r'.known }
  agrees : d.Agrees ws'
  kept : ∀ id, ws.contains id = true → ws'.contains id = true
  known : ∀ id, id ∈ r'.known ↔ ws'.contains id = true
  targets : ∀ l ∈ ls, ∀ n, l.target = .id n → (d.widget? n).isSome → n ∈ r'.known

theorem MetTargets.cons {d : Document α} {l : PendingLink} {ls : List PendingLink}
    {r r₁ r' : Registry} {ws ws₁ ws' : SortedMap SectionId WidgetInfo}
    (hr : r₁ = { r with known := r₁.known })
    (kept : ∀ id, ws.contains id = true → ws₁.contains id = true)
    (known : ∀ id, id ∈ r₁.known ↔ ws₁.contains id = true)
    (met : ∀ n, l.target = .id n → (d.widget? n).isSome → n ∈ r₁.known)
    (m : MetTargets d ls r₁ ws₁ r' ws') : MetTargets d (l :: ls) r ws r' ws' where
  registry := by
    have registry := m.registry
    rw [hr] at registry
    exact registry
  agrees := m.agrees
  kept := fun id hid => m.kept id (kept id hid)
  known := m.known
  targets := by
    intro l' hl' n hn there
    rcases List.mem_cons.1 hl' with rfl | hl'
    · exact (m.known n).2 (m.kept n ((known n).1 (met n hn there)))
    · exact m.targets l' hl' n hn there

theorem fetchTargets_yields (ls : List PendingLink) (r : Registry)
    (ws : SortedMap SectionId WidgetInfo) {st : Schooled (Document α)} (h : st.engine.Agrees ws)
    (known : ∀ id, id ∈ r.known ↔ ws.contains id = true)
    (inTree : ∀ n, (r.targetPane? (.id n)).isSome → n ∈ r.known) :
    (fetchTargets Document.client ls r ws).Yields st
      (fun x st' => st' = st ∧ MetTargets st.engine ls r ws x.1 x.2) (fun _ _ => False) := by
  induction ls generalizing r ws with
  | nil => exact ⟨rfl, rfl, h, fun _ => id, known, by simp⟩
  | cons l ls ih =>
    unfold fetchTargets
    -- In every branch it is enough that the target of `l` is known afterwards, if it exists.
    have step : ∀ (r₁ : Registry) (ws₁ : SortedMap SectionId WidgetInfo),
        r₁ = { r with known := r₁.known } → st.engine.Agrees ws₁ →
        (∀ id, ws.contains id = true → ws₁.contains id = true) →
        (∀ id, id ∈ r₁.known ↔ ws₁.contains id = true) →
        (∀ n, l.target = .id n → (st.engine.widget? n).isSome → n ∈ r₁.known) →
        (fetchTargets Document.client ls r₁ ws₁).Yields st
          (fun x st' => st' = st ∧ MetTargets st.engine (l :: ls) r ws x.1 x.2)
          (fun _ _ => False) := by
      intro r₁ ws₁ hr h₁ kept₁ known₁ met
      have inTree₁ : ∀ n, (r₁.targetPane? (.id n)).isSome → n ∈ r₁.known := by
        intro n hn
        rw [hr] at hn
        exact (known₁ n).2 (kept₁ n ((known n).1 (inTree n hn)))
      refine (ih r₁ ws₁ h₁ known₁ inTree₁).mono ?_ fun _ _ => id
      rintro ⟨r', ws'⟩ st' ⟨rfl, m⟩
      exact ⟨rfl, m.cons hr kept₁ known₁ met⟩
    split
    · next key ht => exact step r ws rfl h (fun _ => id) known fun n hn => by simp [ht] at hn
    · next n ht =>
      split
      · next met =>
        refine step r ws rfl h (fun _ => id) known fun n' hn _ => ?_
        rw [ht, LinkTarget.id.injEq] at hn
        subst hn
        rw [Bool.or_eq_true, ht] at met
        exact met.elim (inTree n) (known n).2
      · next unmet =>
        rw [Run.yields_bind]
        refine fetch_yields ?_
        split
        · next w hw =>
          refine step (r.markKnown n) (ws.insert n w) rfl (h.insert hw) ?_ ?_ ?_
          · exact fun id hid => by simp [SortedMap.contains_insert, hid]
          · intro id
            simp only [Registry.markKnown, List.mem_cons, SortedMap.contains_insert, known id,
              Bool.or_eq_true, decide_eq_true_eq]
          · intro n' hn _
            rw [ht, LinkTarget.id.injEq] at hn
            simp [Registry.markKnown, hn]
        · next hw =>
          refine step r ws rfl h (fun _ => id) known fun n' hn exists' => ?_
          rw [ht, LinkTarget.id.injEq] at hn
          subst hn
          simp [hw] at exists'

/-- Every link whose tables are known has been found to fit them, or one has been found not to. -/
theorem checkLinks_yields (rules : LinkRules) (plan : Plan α) (r : Registry) (s : Surroundings)
    (ls : List PendingLink) {ts : TableStore} {st : Schooled (Document α)}
    (k : LinkCheck.Knows ts st) :
    (checkLinks Document.client rules plan r s ls).Yields st
      (fun _ st' => LinkCheck.Learns ts st st' ∧
        ∀ l ∈ ls, ∀ ends, s.ends r l = some ends → l.link.Fits ts rules ends)
      (fun _ st' => LinkCheck.Learns ts st st' ∧
        ∃ l ∈ ls, ∃ ends, s.ends r l = some ends ∧ ¬ l.link.Fits ts rules ends) := by
  induction ls generalizing st with
  | nil => exact ⟨k.stay, by simp⟩
  | cons l ls ih =>
    unfold checkLinks
    cases hl : s.ends r l with
    | none =>
      dsimp only
      refine (ih k).mono ?_ ?_
      · rintro - st' ⟨learned, fits⟩
        refine ⟨learned, List.forall_mem_cons.2 ⟨?_, fits⟩⟩
        simp [hl]
      · rintro - st' ⟨learned, l', hl', ends, he, misfit⟩
        exact ⟨learned, l', by simp [hl'], ends, he, misfit⟩
    | some ends =>
      simp only [Run.yields_bind]
      refine (LinkCheck.check_yields rules l.link ends _ k).mono ?_ ?_
      · rintro - st' ⟨learned, fits, -⟩
        refine (ih learned.knows).mono ?_ ?_
        · rintro - st'' ⟨learned', fits'⟩
          refine ⟨learned.trans learned', List.forall_mem_cons.2 ⟨?_, fits'⟩⟩
          intro ends' he
          rwa [← Option.some.inj (hl.symm.trans he)]
        · rintro - st'' ⟨learned', l', hl', ends', he, misfit⟩
          exact ⟨learned.trans learned', l', by simp [hl'], ends', he, misfit⟩
      · rintro - st' ⟨learned, misfit⟩
        exact ⟨learned, l, by simp, ends, hl, misfit⟩

end Compile

/-! ## The whole survey -/

theorem Slot.tableIn_plan (d : Document α) {tables : TableMap} {i : Nat} {k : UInt32}
    {ps : List Pane} {s : Slot} (h : s ∈ number tables i k ps) :
    s.plan.tableIn d = d.paneTable? tables s.pane := by
  unfold PanePlan.tableIn Document.paneTable?
  cases hs : s.pane.section? with
  | some id =>
    have real : s.plan.ref = .real id := (number_real h id).2 hs
    simp [real]
  | none =>
    have same : s.plan.table = s.pane.table?.bind tables.get? := number_table h
    cases hr : s.plan.ref with
    | real id => simp [(number_real h id).1 hr] at hs
    | placeholder p => simp [same]

/-- What a survey of the document `d` has found out. -/
structure Surveyed (d : Document α) (tables : TableMap) (t : Layout α) (plan : Plan α)
    (r : Registry) (s : Surroundings) : Prop where
  registry : r = { plan.registry with known := r.known }
  tables : s.paneTables = t.panes.map (d.paneTable? tables)
  agrees : d.Agrees s.widgets
  known : ∀ id, id ∈ r.known ↔ s.widgets.contains id = true
  reals : ∀ p ∈ t.panes, ∀ id, p.section? = some id → s.widgets.contains id = true
  targets : ∀ l ∈ plan.links, ∀ n, l.target = .id n → (d.widget? n).isSome → n ∈ r.known

namespace Surveyed

variable [Scalar α] {d : Document α} {tables : TableMap} {t : Layout α} {plan : Plan α}
  {r : Registry} {s : Surroundings}

theorem panes_eq (h : Surveyed d tables t plan r s) (draws : plan.Draws tables t) :
    r.panes = (t.slots tables).map (·.ref) := by
  rw [h.registry]
  exact draws.registered

theorem resolved_eq (h : Surveyed d tables t plan r s) (draws : plan.Draws tables t) :
    r.resolved = ∅ := by
  rw [h.registry]
  exact draws.resolved

theorem names_eq (h : Surveyed d tables t plan r s) (draws : plan.Draws tables t) :
    r.names = .ofLayout t := by
  rw [h.registry]
  exact draws.names

theorem pending_eq (h : Surveyed d tables t plan r s) (draws : plan.Draws tables t) :
    r.pending = [] := by
  rw [h.registry]
  exact draws.pending

omit [Scalar α] in
theorem known_get? (h : Surveyed d tables t plan r s) {n : SectionId} (hn : n ∈ r.known) :
    s.widgets.get? n = d.widget? n ∧ (d.widget? n).isSome :=
  h.agrees.get? ((h.known n).1 hn)

omit [Scalar α] in
theorem get?_target (h : Surveyed d tables t plan r s) {l : PendingLink} (hl : l ∈ plan.links)
    {n : SectionId} (hn : l.target = .id n) : s.widgets.get? n = d.widget? n := by
  by_cases known : n ∈ r.known
  · exact (h.known_get? known).1
  · have unseen : s.widgets.get? n = none := by
      cases hw : s.widgets.get? n with
      | none => rfl
      | some w => exact absurd ((h.known n).2 (Option.isSome_iff_exists.2 ⟨w, hw⟩)) known
    have absent : d.widget? n = none := by
      cases hw : d.widget? n with
      | none => rfl
      | some w => exact absurd (h.targets l hl n hn (Option.isSome_iff_exists.2 ⟨w, hw⟩)) known
    rw [unseen, absent]

/-- The pane that a number denotes has the table of that widget. -/
theorem paneTable?_of_targetPane? (h : Surveyed d tables t plan r s) (draws : plan.Draws tables t)
    {n : SectionId} {i : Nat} (hi : r.targetPane? (.id n) = some i) :
    t.panes[i]?.bind (d.paneTable? tables) = (d.widget? n).map (·.table) := by
  obtain ⟨ref, hr, hl⟩ := Registry.targetPane?_id hi
  rw [h.panes_eq draws, List.getElem?_map] at hr
  obtain ⟨slot, hslot, rfl⟩ := Option.map_eq_some_iff.1 hr
  rw [(Layout.slots_getElem? hslot).2, Option.bind_some, Document.paneTable?]
  have mem := List.mem_of_getElem? hslot
  cases href : slot.ref with
  | real id =>
    rw [href] at hl
    obtain rfl := Option.some.inj hl
    rw [(Slot.number_real mem id).1 href]
  | placeholder p =>
    rw [href, Registry.lookup, h.resolved_eq draws] at hl
    cases hl

/-- The tables at the ends of a link are those of the document, and they stay what they are while
sections are given out, unless the target is one of the numbers that were given out. -/
theorem ends_eq (h : Surveyed d tables t plan r s) (draws : plan.Draws tables t) {l : PendingLink}
    (hl : l ∈ plan.links) (xs : List (PlaceholderId × SectionId))
    (apart : ∀ n, l.target = .id n → n ∉ xs.map (·.2)) (q : List PendingLink) :
    s.ends { r.given xs with pending := q } l = d.ends? tables t.panes l.ownerIndex l.target := by
  have pane (i : Nat) : (s.paneTables[i]?).join = t.panes[i]?.bind (d.paneTable? tables) := by
    rw [h.tables, List.getElem?_map]
    cases t.panes[i]? <;> rfl
  have source : s.sourceTable? { r.given xs with pending := q } l.target =
      d.targetTable? tables t.panes l.target := by
    unfold Surroundings.sourceTable? Document.targetTable?
    cases ht : l.target with
    | name key =>
      have same : ({ r.given xs with pending := q } : Registry).targetPane? (.name key) =
          ((NameIndex.ofPanes t.panes).resolve key).unique? := by
        simp only [Registry.targetPane?, Registry.names_given, h.names_eq draws]
        rfl
      rw [same]
      dsimp only
      cases ((NameIndex.ofPanes t.panes).resolve key).unique? with
      | none => rfl
      | some i => exact pane i
    | id n =>
      have unused : ∀ p ∈ xs.map (·.1), r.resolved.get? p = none := by
        intro p _
        rw [h.resolved_eq draws]
        rfl
      have same : ({ r.given xs with pending := q } : Registry).targetPane? (.id n) =
          r.targetPane? (.id n) := Registry.targetPane?_id_given unused (apart n ht)
      rw [same]
      dsimp only
      cases hi : r.targetPane? (.id n) with
      | some i => exact (pane i).trans (h.paneTable?_of_targetPane? draws hi)
      | none => exact congrArg (Option.map (·.table)) (h.get?_target hl ht)
  rw [Surroundings.ends_eq_bind, pane, source]
  rfl

end Surveyed

namespace Compile

variable [Scalar α] {tables : TableMap} {t : Layout α} {plan : Plan α}

/-- What a survey stops at: a pane without a widget, or a link that does not fit its tables. -/
def Obstructed (d : Document α) (tables : TableMap) (rules : LinkRules) (t : Layout α)
    (plan : Plan α) : Prop :=
  (∃ p ∈ t.panes, ∃ id, p.section? = some id ∧ d.widget? id = none) ∨
    ∃ l ∈ plan.links, ∃ ends, d.ends? tables t.panes l.ownerIndex l.target = some ends ∧
      ¬ l.link.Fits d.tables rules ends

theorem obstructed_of_absent (d : Document α) (rules : LinkRules) (draws : plan.Draws tables t)
    {p : PanePlan} (hp : p ∈ plan.panes) {id : SectionId} (hid : p.ref = .real id)
    (absent : d.widget? id = none) : Obstructed d tables rules t plan := by
  rw [draws.panes] at hp
  obtain ⟨slot, hs, rfl⟩ := List.mem_map.1 hp
  exact .inl ⟨slot.pane, Layout.pane_mem_of_slot hs, id, (Slot.number_real hs id).1 hid, absent⟩

theorem MetPanes.known {d : Document α} {s : Surroundings} {missing : List Violation}
    (m : MetPanes d plan.panes ⟨[], ∅⟩ s missing) (draws : plan.Draws tables t)
    (full : missing = []) (id : SectionId) :
    id ∈ plan.registry.known ↔ s.widgets.contains id = true := by
  rw [draws.known_iff]
  constructor
  · rintro ⟨p, hp, hid⟩
    exact m.reals full p hp id hid
  · intro hid
    rcases m.only id hid with hid | found
    · cases hid
    · exact found

theorem surveyed_of_met {d : Document α} {s : Surroundings} {missing : List Violation}
    {r : Registry} {ws : SortedMap SectionId WidgetInfo} (draws : plan.Draws tables t)
    (m : MetPanes d plan.panes ⟨[], ∅⟩ s missing) (full : missing = [])
    (mt : MetTargets d plan.links plan.registry s.widgets r ws) :
    Surveyed d tables t plan r { s with widgets := ws } where
  registry := mt.registry
  tables := by
    rw [m.tables full, draws.panes, ← t.slots_panes tables]
    simp only [List.nil_append, List.map_map]
    exact List.map_congr_left fun slot hs => Slot.tableIn_plan _ hs
  agrees := mt.agrees
  known := mt.known
  reals := by
    intro p hp id hid
    refine mt.kept id ((m.known draws full id).1 ?_)
    rw [draws.known]
    exact ⟨p, hp, hid⟩
  targets := mt.targets

theorem survey_yields (rules : LinkRules) (draws : plan.Draws tables t)
    {st : Schooled (Document α)} (k : LinkCheck.Knows st.engine.tables st) :
    (survey Document.client rules plan).Yields st
      (fun x st' => LinkCheck.Learns st.engine.tables st st' ∧
        Surveyed st.engine tables t plan x.1 x.2 ∧
        ∀ l ∈ plan.links, ∀ ends,
          st.engine.ends? tables t.panes l.ownerIndex l.target = some ends →
          l.link.Fits st.engine.tables rules ends)
      (fun _ st' => LinkCheck.Learns st.engine.tables st st' ∧
        Obstructed st.engine tables rules t plan) := by
  unfold survey
  rw [Run.yields_bind]
  have none : st.engine.Agrees (∅ : SortedMap SectionId WidgetInfo) := fun id w h => by cases h
  refine (fetchPanes_yields plan.panes ⟨[], ∅⟩ none).mono ?_ fun _ _ => False.elim
  rintro ⟨s, missing⟩ st' ⟨rfl, m⟩
  dsimp only at m ⊢
  split
  · next some =>
    obtain ⟨p, hp, id, hid, absent⟩ := m.absent (by simpa using some)
    exact ⟨k.stay, obstructed_of_absent _ rules draws hp hid absent⟩
  · next full =>
    have full : missing = [] := by simpa using full
    have known := m.known draws full
    rw [Run.yields_bind]
    refine (fetchTargets_yields plan.links plan.registry s.widgets m.agrees known
      fun _ => draws.mem_known_of_targetPane?).mono ?_ fun _ _ => False.elim
    rintro ⟨r, ws⟩ st' ⟨rfl, mt⟩
    dsimp only at mt ⊢
    have sv : Surveyed st'.engine tables t plan r { s with widgets := ws } :=
      surveyed_of_met draws m full mt
    have ends {l : PendingLink} (hl : l ∈ plan.links) :=
      sv.ends_eq draws hl [] (fun _ _ => List.not_mem_nil) r.pending
    rw [Run.yields_bind]
    refine (checkLinks_yields rules plan r { s with widgets := ws } plan.links k).mono ?_ ?_
    · rintro - st'' ⟨learned, fits⟩
      refine ⟨learned, sv, fun l hl e he => fits l hl e ?_⟩
      rw [← he]
      exact ends hl
    · rintro - st'' ⟨learned, l, hl, e, he, misfit⟩
      refine ⟨learned, .inr ⟨l, hl, e, ?_, misfit⟩⟩
      rw [← he]
      exact (ends hl).symm

end Compile
end PaneLayout
