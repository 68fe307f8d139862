import PaneLayout.Proofs.Sending
import PaneLayout.Proofs.Trace

set_option autoImplicit false

/-!
# What the answers bear out

A run resolves a link with what it was answered: its source and the tables at both ends come from
the widgets that were fetched or created, its columns from the columns that were listed. What a run
keeps of the schema it was answered, and the trace that holds the answers only grows, so the trace
bears out every tuple at the end of the run.
-/

namespace PaneLayout

variable {α σ : Type}

/-! ## The schema -/

/-- What is held of the columns of tables and of the tables that they summarise. -/
structure Findings where
  columns : TableRef → List ColumnInfo → Prop
  lineage : TableRef → Option TableRef → Prop

namespace Findings

/-- What a run has kept. -/
def kept (st : Schooled σ) : Findings where
  columns t cols := st.columns.get? t = some cols
  lineage t source := st.lineage.get? t = some source

/-- What a client has answered. -/
def answered (es : List (Event α)) : Findings where
  columns t cols := .listColumns t (.ok cols) ∈ es
  lineage t source := .summarySource t (.ok source) ∈ es

structure Within (k k' : Findings) : Prop where
  columns : ∀ t cols, k.columns t cols → k'.columns t cols
  lineage : ∀ t source, k.lineage t source → k'.lineage t source

/-- A column of a table, the row id among them. -/
def Column (k : Findings) (t : TableRef) (id : String) (c : ColumnInfo) : Prop :=
  if id == rowIdColumn then c = .rowId
  else ∃ cols, k.columns t cols ∧ cols.find? (fun c => c.id == id) = some c

variable {k k' : Findings}

theorem Within.column (h : k.Within k') {t : TableRef} {id : String} {c : ColumnInfo}
    (found : k.Column t id c) : k'.Column t id c := by
  unfold Column at found ⊢
  split
  · next own => rwa [if_pos own] at found
  · next other =>
    rw [if_neg other] at found
    obtain ⟨cols, listed, here⟩ := found
    exact ⟨cols, h.columns t cols listed, here⟩

theorem within_of_extends {st st' : Schooled σ} (more : st.Extends st') :
    (kept st).Within (kept st') :=
  ⟨more.columns, more.lineage⟩

end Findings

namespace Link

variable (l : Link) (k : Findings) (rules : LinkRules) (ends : LinkEnds)

/-- The reference is that of the link's column, which the source has and which is of the kind that
the link asks for. -/
def HasSource (ref : ColumnRef) : Prop :=
  match l.sourceCol with
  | some id => ∃ c, k.Column ends.source id c ∧ ref = c.ref ∧
      (rules.columnKinds = true → (l.kind = .listedIn → c.isListValued = true) ∧
        (l.kind = .filteredBy → c.isListValued = false))
  | none => ref = .unset

/-- The reference is that of the link's target column, which the owner has. -/
def HasTarget (ref : ColumnRef) : Prop :=
  match l.targetCol with
  | some id => ∃ c, k.Column ends.owner id c ∧ ref = c.ref
  | none => ref = .unset

/-- The link passes its check, with these columns. -/
structure Checks (source target : ColumnRef) : Prop where
  atSource : l.HasSource k rules ends source
  atTarget : l.HasTarget k ends target
  lineage : rules.lineage = true → l.kind = .breakdownOf → k.lineage ends.owner (some ends.source)

variable {l k rules ends} {k' : Findings} {ref source target : ColumnRef}

theorem HasSource.mono (h : l.HasSource k rules ends ref) (more : k.Within k') :
    l.HasSource k' rules ends ref := by
  unfold HasSource at h ⊢
  cases hl : l.sourceCol with
  | none => rwa [hl] at h
  | some id =>
    rw [hl] at h
    obtain ⟨c, found, same, kinds⟩ := h
    exact ⟨c, more.column found, same, kinds⟩

theorem HasTarget.mono (h : l.HasTarget k ends ref) (more : k.Within k') :
    l.HasTarget k' ends ref := by
  unfold HasTarget at h ⊢
  cases hl : l.targetCol with
  | none => rwa [hl] at h
  | some id =>
    rw [hl] at h
    obtain ⟨c, found, same⟩ := h
    exact ⟨c, more.column found, same⟩

theorem Checks.mono (h : l.Checks k rules ends source target) (more : k.Within k') :
    l.Checks k' rules ends source target where
  atSource := h.atSource.mono more
  atTarget := h.atTarget.mono more
  lineage on kind := more.lineage _ _ (h.lineage on kind)

end Link

namespace LinkCheck

variable (client : Client α σ) (rules : LinkRules)

theorem columns_kept (t : TableRef) (st : Schooled σ) : (columns client t).Yields st
    (fun cols st' => (Findings.kept st').columns t cols) fun _ _ => True :=
  yields_columns client t (fun _ known => known) (fun _ _ _ => trivial)
    fun _ _ _ _ => SortedMap.get?_insert_self ..

theorem summarySource_kept (t : TableRef) (st : Schooled σ) : (summarySource client t).Yields st
    (fun source st' => (Findings.kept st').lineage t source) fun _ _ => True :=
  yields_summarySource client t (fun _ known => known) (fun _ _ _ => trivial)
    fun _ _ _ _ => SortedMap.get?_insert_self ..

theorem column_kept (t : TableRef) (name label : String) (st : Schooled σ) :
    (column client rules t name label).Yields st
      (fun c st' => (Findings.kept st').Column t name c) fun _ _ => True := by
  unfold column Findings.Column
  split
  · exact rfl
  · rw [Run.yields_bind]
    refine (columns_kept client t st).mono ?_ fun _ _ => id
    intro cols st' kept
    split
    · next c here => exact ⟨cols, kept, here⟩
    · trivial

variable (l : Link) (ends : LinkEnds)

theorem sourceColumn_kept (label : String) (st : Schooled σ) :
    (sourceColumn client rules l ends label).Yields st
      (fun ref st' => l.HasSource (.kept st') rules ends ref) fun _ _ => True := by
  unfold sourceColumn Link.HasSource
  cases l.sourceCol with
  | none => exact rfl
  | some name =>
    dsimp only
    rw [Run.yields_bind]
    refine (column_kept client rules ends.source name label st).mono ?_ fun _ _ => id
    intro c st' found
    split
    · trivial
    · next passed =>
      refine ⟨c, found, rfl, fun on => ?_⟩
      rw [if_pos on] at passed
      exact (kindViolation?_eq_none_iff l c label).1 passed

theorem targetColumn_kept (label : String) (st : Schooled σ) :
    (targetColumn client rules l ends label).Yields st
      (fun ref st' => l.HasTarget (.kept st') ends ref) fun _ _ => True := by
  unfold targetColumn Link.HasTarget
  cases l.targetCol with
  | none => exact rfl
  | some name =>
    dsimp only
    rw [Run.yields_bind]
    refine (column_kept client rules ends.owner name label st).mono ?_ fun _ _ => id
    exact fun c st' found => ⟨c, found, rfl⟩

theorem checkLineage_kept (label : String) (st : Schooled σ) :
    (checkLineage client rules l ends label).Yields st
      (fun _ st' => rules.lineage = true → l.kind = .breakdownOf →
        (Findings.kept st').lineage ends.owner (some ends.source)) fun _ _ => True := by
  unfold checkLineage
  split
  · rw [Run.yields_bind]
    refine (summarySource_kept client ends.owner st).mono ?_ fun _ _ => id
    intro source st' kept
    split
    · trivial
    · next same =>
      intro on kind
      exact not_not.1 same ▸ kept
  · next off =>
    simp only [Bool.and_eq_true, decide_eq_true_eq, not_and] at off
    exact fun on kind => absurd kind (off on)

/-- A check that succeeds has read the columns that it gives. -/
theorem check_kept (label : String) (st : Schooled σ) : (check client rules l ends label).Yields st
    (fun refs st' => l.Checks (.kept st') rules ends refs.1 refs.2) fun _ _ => True := by
  have steady := (Compile.steady_schooling client).related
  unfold check
  dsimp only
  rw [Run.yields_bind]
  refine (sourceColumn_kept client rules l ends _ st).mono ?_ fun _ _ => id
  intro source st₁ atSource
  rw [Run.yields_bind]
  refine ((targetColumn_kept client rules l ends _ st₁).and
    (steady.targetColumn rules l ends _ st₁)).mono ?_ fun _ _ => And.left
  rintro target st₂ ⟨atTarget, more, -⟩
  rw [Run.yields_bind]
  refine ((checkLineage_kept client rules l ends _ st₂).and
    (steady.checkLineage rules l ends _ st₂)).mono ?_ fun _ _ => And.left
  rintro - st₃ ⟨lineage, more', -⟩
  exact ⟨atSource.mono (Findings.within_of_extends (more.trans more')),
    atTarget.mono (Findings.within_of_extends more'), lineage⟩

end LinkCheck

/-! ## What is kept was answered -/

/-- Everything that was learned of the schema stands in the trace. -/
def Schooled.Backed (st : Schooled (Traced α σ)) : Prop :=
  (Findings.kept st).Within (.answered st.trace)

theorem Schooled.Backed.more {st : Schooled (Traced α σ)} (h : st.Backed) (e : σ)
    (es : List (Event α)) : Backed { st with engine := (e, st.trace ++ es) } where
  columns t cols kept := List.mem_append_left es (h.columns t cols kept)
  lineage t source kept := List.mem_append_left es (h.lineage t source kept)

def LinkRun.Backs {β : Type} (x : LinkRun (Traced α σ) β) : Prop :=
  ∀ st : Schooled (Traced α σ), st.Backed → (x.start st).2.Backed

theorem LinkRun.backs_closed : Closed fun {β} (x _ : LinkRun (Traced α σ) β) => x.Backs :=
  closed_of_preorder (R := fun st st' => st.Backed → st'.Backed) (fun _ h => h)
    fun first rest h => rest (first h)

theorem LinkRun.backs_ask {β : Type} (step : FailedStep) (event : Except Fault β → Event α)
    (call : σ → Reply σ β) : (ask step (Client.note event call)).Backs := by
  intro st h
  rw [start_ask_note]
  exact h.more _ _

namespace Compile

theorem backs_populating (client : Client α σ) :
    Populating (fun {β} (x _ : LinkRun (Traced α σ) β) => x.Backs) client.traced client.traced where
  toClosed := LinkRun.backs_closed
  columns t := by
    intro st h
    refine Run.yields_end_iff.1 (LinkCheck.yields_columns _ t (fun _ _ => h) ?_ ?_)
    · rintro f ⟨e, es⟩ answer
      obtain rfl : es = _ := Client.trace_note answer
      exact h.more e _
    · rintro cols ⟨e, es⟩ - answer
      obtain rfl : es = _ := Client.trace_note answer
      have more := h.more e [.listColumns t (.ok cols)]
      exact ⟨SortedMap.forall_get?_insert more.columns List.mem_concat_self, more.lineage⟩
  lineage t := by
    intro st h
    refine Run.yields_end_iff.1 (LinkCheck.yields_summarySource _ t (fun _ _ => h) ?_ ?_)
    · rintro f ⟨e, es⟩ answer
      obtain rfl : es = _ := Client.trace_note answer
      exact h.more e _
    · rintro source ⟨e, es⟩ - answer
      obtain rfl : es = _ := Client.trace_note answer
      have more := h.more e [.summarySource t (.ok source)]
      exact ⟨more.columns, SortedMap.forall_get?_insert more.lineage List.mem_concat_self⟩
  fetch id := LinkRun.backs_ask (.fetchWidget id) (.fetchWidget id) (client.fetchWidget id)
  make i t type view := LinkRun.backs_ask (.createWidget i t)
    (fun answer => .createWidget ⟨t, type, view, answer⟩) (client.createWidget t type view)

end Compile

/-! ## Panes and their tables -/

/-- The widget was there when it was asked for. -/
def Fetched (es : List (Event α)) (id : SectionId) (w : WidgetInfo) : Prop :=
  .fetchWidget id (.ok (some w)) ∈ es

/-- The pane is on this table: a new one on the table that its name stands for, any other one on that
of its widget. -/
inductive Pane.StandsOn (tables : TableMap) (es : List (Event α)) : Pane → TableRef → Prop
  | new {name : String} {type : WidgetType} {info : PaneInfo} {table : TableRef} :
    tables.get? name = some table → StandsOn tables es (.new name type info) table
  | shown {p : Pane} {id : SectionId} {w : WidgetInfo} :
    p.section? = some id → Fetched es id w → StandsOn tables es p w.table

/-- The table noted for a pane is the one that the plan has for it, or that of its widget. -/
def PanePlan.Shows (es : List (Event α)) (p : PanePlan) (table : Option TableRef) : Prop :=
  table = p.table ∨ ∃ id w, p.ref = .real id ∧ Fetched es id w ∧ table = some w.table

/-- The tables are those of the panes `ps`, and all widgets have been fetched. -/
structure Surroundings.Shown (es : List (Event α)) (ps : List PanePlan) (s : Surroundings) :
    Prop where
  widgets : ∀ id w, s.widgets.get? id = some w → Fetched es id w
  tables : List.Forall₂ (PanePlan.Shows es) ps s.paneTables

section
variable {es es' : List (Event α)} {s : Surroundings} {ps : List PanePlan}

theorem PanePlan.Shows.mono {p : PanePlan} {table : Option TableRef} (h : p.Shows es table)
    (more : es <+: es') : p.Shows es' table := by
  rcases h with planned | ⟨id, w, real, fetched, same⟩
  · exact .inl planned
  · exact .inr ⟨id, w, real, more.mem fetched, same⟩

theorem Surroundings.Shown.mono (h : s.Shown es ps) (more : es <+: es') : s.Shown es' ps where
  widgets id w hw := more.mem (h.widgets id w hw)
  tables := h.tables.imp fun _ _ shows => shows.mono more

theorem Surroundings.Shown.concat (h : s.Shown es ps) {p : PanePlan} {table : Option TableRef}
    (shows : p.Shows es table) :
    Surroundings.Shown es (ps ++ [p]) { s with paneTables := s.paneTables ++ [table] } where
  widgets := h.widgets
  tables := List.rel_append h.tables (.cons shows .nil)

theorem Surroundings.Shown.insert (h : s.Shown es ps) {id : SectionId} {w : WidgetInfo}
    (fetched : Fetched es id w) :
    Surroundings.Shown es ps { s with widgets := s.widgets.insert id w } where
  widgets := SortedMap.forall_get?_insert h.widgets fetched
  tables := h.tables

end

namespace Compile

variable (client : Client α σ) {s : Surroundings}

theorem fetchPanes_shown (ps : List PanePlan) {before : List PanePlan}
    {st : Schooled (Traced α σ)} (h : s.Shown st.trace before) :
    (fetchPanes client.traced ps s).Yields st
      (fun x st' => x.1.Shown st'.trace (before ++ ps)) fun _ _ => True := by
  induction ps generalizing before s st with
  | nil => exact (List.append_nil before).symm ▸ h
  | cons p ps ih =>
    rw [List.append_cons]
    unfold fetchPanes
    cases hp : p.ref with
    | placeholder q => exact ih (h.concat (.inl rfl))
    | real n =>
      dsimp only
      rw [Run.yields_bind, fetch, LinkRun.yields_ask]
      simp only [Client.traced, Client.note]
      rcases client.fetchWidget n st.engine.1 with ⟨_ | _ | w, e⟩
      · trivial
      · dsimp only
        rw [Run.yields_bind]
        refine (ih ((h.mono (List.prefix_append _ _)).concat (.inl rfl))).mono ?_ fun _ _ => id
        exact fun x st' shown => shown
      · have fetched : Fetched (st.trace ++ [.fetchWidget n (.ok (some w))]) n w :=
          List.mem_concat_self
        refine ih (((h.mono (List.prefix_append _ _)).concat ?_).insert fetched)
        exact .inr ⟨n, w, hp, fetched, rfl⟩

theorem fetchTargets_fetched (ls : List PendingLink) (r : Registry)
    {ws : SortedMap SectionId WidgetInfo} {st : Schooled (Traced α σ)}
    (h : ∀ id w, ws.get? id = some w → Fetched st.trace id w) :
    (fetchTargets client.traced ls r ws).Yields st
      (fun x st' => ∀ id w, x.2.get? id = some w → Fetched st'.trace id w) fun _ _ => True := by
  induction ls generalizing r ws st with
  | nil => exact h
  | cons l ls ih =>
    unfold fetchTargets
    cases l.target with
    | name key => exact ih r h
    | id n =>
      dsimp only
      split
      · exact ih r h
      · rw [Run.yields_bind, fetch, LinkRun.yields_ask]
        simp only [Client.traced, Client.note]
        rcases client.fetchWidget n st.engine.1 with ⟨_ | _ | w, e⟩
        · trivial
        · exact ih r fun id w hw => List.mem_append_left _ (h id w hw)
        · refine ih _ (SortedMap.forall_get?_insert ?_ List.mem_concat_self)
          exact fun id w hw => List.mem_append_left _ (h id w hw)

theorem survey_shown (rules : LinkRules) (plan : Plan α) (st : Schooled (Traced α σ)) :
    (survey client.traced rules plan).Yields st
      (fun x st' => x.2.Shown st'.trace plan.panes) fun _ _ => True := by
  have none : Surroundings.Shown st.trace [] ⟨[], ∅⟩ := by
    refine ⟨fun _ _ hw => ?_, .nil⟩
    cases hw
  unfold survey
  rw [Run.yields_bind]
  refine (fetchPanes_shown client plan.panes none).mono ?_ fun _ _ => id
  rintro ⟨s, missing⟩ st₁ shown
  rw [List.nil_append] at shown
  dsimp only at shown ⊢
  split
  · trivial
  · rw [Run.yields_bind]
    have tables := (grows_populating client).fetchTargets plan.links plan.registry s.widgets
    refine ((fetchTargets_fetched client plan.links plan.registry shown.widgets).and
      (LinkRun.Grows.yields tables st₁)).mono ?_ fun _ _ => And.left
    rintro ⟨r, ws⟩ st₂ ⟨fetched, more⟩
    dsimp only
    rw [Run.yields_bind]
    have checks := (grows_populating client).checkLinks rules plan r
      { s with widgets := ws } plan.links
    refine (LinkRun.Grows.yields checks st₂).mono ?_ fun _ _ _ => trivial
    intro _ st₃ more'
    exact Surroundings.Shown.mono ⟨fetched, (shown.mono more).tables⟩ more'

section
variable [Scalar α] (config : CompilerConfig) (request : LayoutRequest α)

theorem populate_shown (st : Schooled (Traced α σ)) :
    (populate client.traced config request).Yields st
      (fun x st' => x.2.1.Shown st'.trace x.1.panes) fun _ _ => True := by
  have grows := grows_populating client
  unfold populate
  rw [Run.yields_bind, yields_liftExcept]
  cases Plan.make request.layout request.tables with
  | error e => trivial
  | ok plan =>
    dsimp only
    split
    · rw [Run.yields_bind]
      trivial
    rw [Run.yields_bind]
    refine (survey_shown client _ plan st).mono ?_ fun _ _ => id
    rintro ⟨r, s⟩ st₁ shown
    dsimp only at shown ⊢
    rw [Run.yields_bind]
    have old := grows.resolveOrDefer (.ofConfig request.tables config) plan s plan.links
      ⟨r, request.view, [], ∅⟩
    refine (LinkRun.Grows.yields old st₁).mono ?_ fun _ _ _ => trivial
    intro p₁ st₂ more
    rw [Run.yields_bind]
    have new := grows.createAll (.ofConfig request.tables config) plan s plan.creations p₁
    refine (LinkRun.Grows.yields new st₂).mono ?_ fun _ _ _ => trivial
    exact fun p st₃ more' => shown.mono (more.trans more')

/-- Past the last creation the trace bears out what the run has kept. -/
theorem populate_backed (s₀ : σ) : (populate client.traced config request).Yields (.fresh (s₀, []))
    (fun _ st => st.Backed) fun _ _ => True := by
  have fresh : Schooled.Backed (.fresh (s₀, []) : Schooled (Traced α σ)) := by
    constructor <;> exact fun _ _ kept => nomatch kept
  have backed := (backs_populating client).populate config request _ fresh
  exact (Run.yields_end_iff.2 backed).mono (fun _ _ => id) fun _ _ _ => trivial

end

end Compile

/-! ## Tuples -/

/-- The target of a link is the `j`-th pane, the panes having the sections `ss`. -/
def LinkTarget.Picks (names : NameIndex) (ss : List SectionId) (j : Nat) : LinkTarget → Prop
  | .name key => names.resolve key = .unique j
  | .id n => ss[j]? = some n

/-- The target of a link is this section, on this table: that of a pane, or that of a widget which
was fetched by its number. -/
inductive LinkTarget.LeadsTo (t : Layout α) (tables : TableMap) (ss : List SectionId)
    (es : List (Event α)) : LinkTarget → SectionId → TableRef → Prop
  | pane {target : LinkTarget} {j : Nat} {p : Pane} {id : SectionId} {table : TableRef} :
    target.Picks (.ofLayout t) ss j → t.panes[j]? = some p → ss[j]? = some id →
    p.StandsOn tables es table → LeadsTo t tables ss es target id table
  | widget {n : SectionId} {w : WidgetInfo} :
    Fetched es n w → LeadsTo t tables ss es (.id n) n w.table

/-- The link of the pane `p` has been resolved to the tuple, by what the calls `es` were answered.
The panes have the sections `ss`, of which `ids` are new. -/
structure Link.Resolved (rules : LinkRules) (t : Layout α) (ss ids : List SectionId)
    (es : List (Event α)) (p : Pane) (l : Link) (tuple : LinkTuple) : Prop where
  known : (∃ w, Fetched es tuple.source w) ∨ tuple.source ∈ ids
  number : ∀ n, l.source = .id n → tuple.source = n
  name : ∀ key, l.source = .name key → ∃ j, (NameIndex.ofLayout t).resolve key = .unique j
  /-- Whose sections are linked is said as long as no placeholder stands for two panes. -/
  ends : ∃ ends, p.StandsOn rules.tables es ends.owner ∧
    l.Checks (.answered es) rules ends tuple.sourceCol tuple.targetCol ∧
    (t.newPanes.length ≤ UInt32.size →
      l.source.LeadsTo t rules.tables ss es tuple.source ends.source)

namespace Compile

/-- A link that was resolved has a source, and has passed its check. -/
theorem resolveLink_kept (client : Client α σ) (rules : LinkRules) (plan : Plan α) (r : Registry)
    (s : Surroundings) (l : PendingLink) (st : Schooled σ) :
    (resolveLink client rules plan r s l).Yields st
      (fun tuple st' => r.lookupTarget l.target = some tuple.source ∧ ∃ ends,
        s.ends r l = some ends ∧
        l.link.Checks (.kept st') rules ends tuple.sourceCol tuple.targetCol)
      fun _ _ => True := by
  unfold resolveLink
  dsimp only
  cases r.lookupTarget l.target with
  | none => trivial
  | some source =>
    cases s.ends r l with
    | none => trivial
    | some ends =>
      dsimp only
      unfold LinkCheck.resolve
      rw [Run.yields_bind]
      refine (LinkCheck.check_kept client rules l.link ends _ st).mono ?_ fun _ _ => id
      exact fun refs st' checks => ⟨rfl, ends, rfl, checks⟩

end Compile

theorem Surroundings.Shown.getElem? {es : List (Event α)} {ps : List PanePlan} {s : Surroundings}
    (h : s.Shown es ps) {i : Nat} {table : TableRef}
    (known : (s.paneTables[i]?).join = some table) :
    ∃ p, ps[i]? = some p ∧ p.Shows es (some table) := by
  obtain ⟨len, shows⟩ := List.forall₂_iff_get.1 h.tables
  have here := Option.join_eq_some_iff.1 known
  obtain ⟨bound, same⟩ := List.getElem?_eq_some_iff.1 here
  have shown := shows i (len ▸ bound) bound
  rw [List.get_eq_getElem, List.get_eq_getElem, same] at shown
  exact ⟨ps[i], List.getElem?_eq_getElem _, shown⟩

namespace Compile.Populated

variable [Scalar α] {client : Client α σ} {config : CompilerConfig} {request : LayoutRequest α}
  {t : Layout α} {plan : Plan α} {s : Surroundings} {r : Registry}
  {xs ys zs : List (PlaceholderId × SectionId)} {p : Progress} {st : Schooled (Traced α σ)}
  (h : Populated client.traced config request t plan r s xs p st)
include h

/-- A table that is known of a pane is its own. -/
theorem standsOn (shown : s.Shown st.trace plan.panes) {i : Nat} {table : TableRef}
    (known : (s.paneTables[i]?).join = some table) :
    ∃ pane, t.panes[i]? = some pane ∧ pane.StandsOn request.tables st.trace table := by
  obtain ⟨q, hq, shows⟩ := shown.getElem? known
  rw [h.draws.panes, List.getElem?_map] at hq
  obtain ⟨slot, hslot, rfl⟩ := Option.map_eq_some_iff.1 hq
  have mem := List.mem_of_getElem? hslot
  refine ⟨slot.pane, (Layout.slots_getElem? hslot).2, ?_⟩
  rcases shows with planned | ⟨id, w, real, fetched, same⟩
  · have named := (planned.trans (Slot.number_table mem)).symm
    cases hp : slot.pane with
    | new name type info =>
      rw [hp] at named
      exact .new named
    | leaf id =>
      rw [hp] at named
      cases named
    | existing id info =>
      rw [hp] at named
      cases named
  · obtain rfl := Option.some.inj same
    exact .shown ((Slot.number_real mem id).1 real) fetched

/-- What a target denotes on the way was fetched or has been created. -/
theorem known_of_lookupTarget (shown : s.Shown st.trace plan.panes) (before : ys <+: xs)
    {target : LinkTarget} {id : SectionId}
    (found : (r.given ys).lookupTarget target = some id) :
    (∃ w, Fetched st.trace id w) ∨ id ∈ p.created.map (·.id) := by
  have fetched (known : id ∈ r.known) : ∃ w, Fetched st.trace id w := by
    obtain ⟨w, hw⟩ := Option.isSome_iff_exists.1 ((h.known id).1 known)
    exact ⟨w, shown.widgets id w hw⟩
  have created (given : id ∈ ys.map (·.2)) : id ∈ p.created.map (·.id) := by
    rw [h.standing.created]
    exact (before.map _).mem given
  cases target with
  | id n =>
    obtain ⟨rfl, known⟩ := Registry.lookupTarget_id found
    exact ((Registry.mem_known_given _ _ _).1 known).imp fetched created
  | name key =>
    obtain ⟨j, ref, -, href, hid⟩ := Registry.lookupTarget_name found
    rw [Registry.panes_given, h.registry] at href
    cases ref with
    | real n =>
      obtain rfl := Option.some.inj hid
      refine .inl (fetched (h.kept ((h.draws.known n).2 ?_)))
      have mem := h.draws.registered ▸ List.mem_of_getElem? href
      obtain ⟨slot, hslot, real⟩ := List.mem_map.1 mem
      exact ⟨slot.pane, Layout.pane_mem_of_slot hslot, (Slot.number_real hslot n).1 real⟩
    | placeholder q =>
      rw [Registry.lookup, Registry.resolved_given, h.blank] at hid
      rcases SortedMap.mem_of_get?_insertAll hid with old | given
      · cases old
      · exact .inr (created (List.mem_map_of_mem given))

theorem names_given (ys : List (PlaceholderId × SectionId)) :
    (r.given ys).names = .ofLayout t := by
  rw [Registry.names_given, h.registry]
  exact h.draws.names

/-- A pane that has a section on the way has it at the end. -/
theorem section_of_lookup {ss : List SectionId}
    (sections : (t.slots request.tables).map (fun slot => p.registry.lookup slot.ref) = ss.map some)
    (unused : ∀ q ∈ zs.map (·.1), (r.given ys).resolved.get? q = none) (split : xs = ys ++ zs)
    {j : Nat} {ref : PaneRef} {id : SectionId} (href : (r.given ys).panes[j]? = some ref)
    (hid : (r.given ys).lookup ref = some id) : ss[j]? = some id := by
  have kept := Registry.lookup_given unused hid
  rw [← Registry.given_append, ← split] at kept
  have panes : p.registry.panes = (r.given ys).panes := by
    rw [h.standing.registry]
    exact (Registry.panes_given r xs).trans (Registry.panes_given r ys).symm
  refine Layout.section_of_lookup h.panes_eq sections (panes ▸ href) ?_
  rw [h.standing.registry]
  cases ref <;> exact kept

theorem leadsTo (shown : s.Shown st.trace plan.panes) {ss : List SectionId}
    (sections : (t.slots request.tables).map (fun slot => p.registry.lookup slot.ref) = ss.map some)
    (unused : ∀ q ∈ zs.map (·.1), (r.given ys).resolved.get? q = none) (split : xs = ys ++ zs)
    {target : LinkTarget} {id : SectionId} {table : TableRef}
    (found : (r.given ys).lookupTarget target = some id)
    (known : s.sourceTable? (r.given ys) target = some table) :
    target.LeadsTo t request.tables ss st.trace id table := by
  have names := h.names_given ys
  unfold Surroundings.sourceTable? at known
  cases target with
  | name key =>
    obtain ⟨j, ref, hj, href, hid⟩ := Registry.lookupTarget_name found
    rw [Registry.targetPane?, hj] at known
    obtain ⟨pane, hp, stands⟩ := h.standsOn shown known
    exact .pane (names ▸ hj) hp (h.section_of_lookup sections unused split href hid) stands
  | id n =>
    obtain ⟨rfl, -⟩ := Registry.lookupTarget_id found
    cases there : (r.given ys).targetPane? (.id id) with
    | none =>
      rw [there] at known
      obtain ⟨w, hw, rfl⟩ := Option.map_eq_some_iff.1 known
      exact .widget (shown.widgets id w hw)
    | some j =>
      rw [there] at known
      obtain ⟨ref, href, hid⟩ := Registry.targetPane?_id there
      obtain ⟨pane, hp, stands⟩ := h.standsOn shown known
      have at_j := h.section_of_lookup sections unused split href hid
      exact .pane at_j hp at_j stands

/-- The tuples of a run are borne out by what it was answered. -/
theorem resolved_of_tuple (backed : st.Backed) (shown : s.Shown st.trace plan.panes)
    {ss : List SectionId}
    (sections : (t.slots request.tables).map (fun slot => p.registry.lookup slot.ref) = ss.map some)
    {i : Nat} {tuple : LinkTuple} (ht : p.tuples.get? i = some tuple) :
    ∃ pane l, t.panes[i]? = some pane ∧ pane.link = some l ∧
      l.Resolved (.ofConfig request.tables config) t ss (p.created.map (·.id)) st.trace pane
        tuple := by
  have has : p.tuples.contains i = true := by rw [SortedMap.contains, ht]; rfl
  obtain ⟨l, hl, -, rfl⟩ := (h.standing.keys i).1 has
  obtain ⟨pane, hp, link, target⟩ := h.draws.pane_of_link hl
  obtain ⟨ys, ⟨zs, split⟩, -, settles⟩ := h.standing.drawn l hl tuple ht
  have kept := resolveLink_kept client.traced (.ofConfig request.tables config) plan (r.given ys) s
    l st
  obtain ⟨found, ends, atEnds, checks⟩ := kept.ok (settles st (.refl st))
  rw [s.ends_eq_bind] at atEnds
  obtain ⟨owner, atOwner, atEnds⟩ := Option.bind_eq_some_iff.1 atEnds
  obtain ⟨source, atSource, same⟩ := Option.bind_eq_some_iff.1 atEnds
  obtain rfl := Option.some.inj same
  rw [target] at found atSource
  refine ⟨pane, l.link, hp, link, ?_, ?_, ?_, ⟨owner, source⟩, ?_, checks.mono backed, ?_⟩
  · exact h.known_of_lookupTarget shown ⟨zs, split⟩ found
  · intro n number
    exact (Registry.lookupTarget_id (number ▸ found)).1
  · intro key name
    obtain ⟨j, -, one, -⟩ := Registry.lookupTarget_name (name ▸ found)
    exact ⟨j, h.names_given ys ▸ one⟩
  · obtain ⟨pane', hp', stands⟩ := h.standsOn shown atOwner
    obtain rfl := Option.some.inj (hp.symm.trans hp')
    exact stands
  · intro few
    refine h.leadsTo shown sections (Registry.unused_of_nodup h.blank ?_) split.symm found atSource
    rw [split, h.placeholders]
    exact h.draws.placeholders_nodup few

end Compile.Populated

end PaneLayout
