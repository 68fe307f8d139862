import PaneLayout.Proofs.Mirror
import PaneLayout.Proofs.Pairs
import PaneLayout.Proofs.Result

set_option autoImplicit false

/-!
# Answers that are kept

What a document answered about its tables is kept from one check of a link to the next. As long as
the document stands by its answers nobody can tell: a check ends as if nothing had been kept and
everything were asked anew. What is kept is never asked again, so each table is learned once.
-/

namespace PaneLayout

variable {α σ τ β : Type}

/-! ## Lasting answers -/

/-- The client answers in `s'` what it answers in `s`. -/
structure Client.SameSchema (client : Client α σ) (s s' : σ) : Prop where
  columns : ∀ t, (client.listColumns t s').1 = (client.listColumns t s).1
  lineage : ∀ t, (client.summarySource t s').1 = (client.summarySource t s).1

/-- What the client can answer in `s` it answers in `s'`; what fails in `s` need not. -/
structure Client.KeepsSchema (client : Client α σ) (s s' : σ) : Prop where
  columns : ∀ t cols, (client.listColumns t s).1 = .ok cols → (client.listColumns t s').1 = .ok cols
  lineage : ∀ t source, (client.summarySource t s).1 = .ok source →
    (client.summarySource t s').1 = .ok source

/-- To be asked does not change what the client answers, but what failed may go well after it. -/
def Client.StandsBy (client : Client α σ) (s : σ) : Except Fault β × σ → Prop
  | (.ok _, s') => client.SameSchema s s'
  | (.error _, s') => client.KeepsSchema s s'

/-- The columns and the lineage of the tables do not change. -/
structure Client.Lasting (client : Client α σ) : Prop where
  columns : ∀ t s, client.StandsBy s (client.listColumns t s)
  lineage : ∀ t s, client.StandsBy s (client.summarySource t s)

namespace Client

variable {client : Client α σ} {s s' s'' : σ}

theorem SameSchema.refl (client : Client α σ) (s : σ) : client.SameSchema s s :=
  ⟨fun _ => rfl, fun _ => rfl⟩

theorem SameSchema.symm (h : client.SameSchema s s') : client.SameSchema s' s :=
  ⟨fun t => (h.columns t).symm, fun t => (h.lineage t).symm⟩

theorem SameSchema.trans (h : client.SameSchema s s') (h' : client.SameSchema s' s'') :
    client.SameSchema s s'' :=
  ⟨fun t => (h'.columns t).trans (h.columns t), fun t => (h'.lineage t).trans (h.lineage t)⟩

theorem SameSchema.keeps (h : client.SameSchema s s') : client.KeepsSchema s s' :=
  ⟨fun t _ => (h.columns t).trans, fun t _ => (h.lineage t).trans⟩

end Client

/-! ## Questions and sessions -/

/-- A call to the checker of links. -/
inductive Query where
  | check (l : Link) (ends : LinkEnds) (label : String)
  | resolve (l : Link) (source : SectionId) (ends : LinkEnds) (label : String)

def Query.Answer : Query → Type
  | check _ _ _ => ColumnRef × ColumnRef
  | resolve _ _ _ _ => LinkTuple

def Query.ask (L : Loads τ) (rules : LinkRules) : (q : Query) → Run τ CompileError q.Answer
  | check l ends label => L.check rules l ends label
  | resolve l source ends label => L.resolve rules l source ends label

def Query.cached (client : Client α σ) (rules : LinkRules) : (q : Query) → LinkRun σ q.Answer
  | check l ends label => LinkCheck.check client rules l ends label
  | resolve l source ends label => LinkCheck.resolve client rules l source ends label

def Query.uncached (client : Client α σ) (rules : LinkRules) (q : Query) :
    Run σ CompileError q.Answer := q.ask (.asking client) rules

theorem Query.cached_eq (client : Client α σ) (rules : LinkRules) (q : Query) :
    q.cached client rules = q.ask (.keeping client) rules := by
  cases q with
  | check l ends label => exact (Loads.check_keeping client rules l ends label).symm
  | resolve l source ends label =>
    exact (Loads.resolve_keeping client rules l source ends label).symm

theorem Loads.Related.ask {P : ∀ {β : Type}, Run σ CompileError β → Run τ CompileError β → Prop}
    {L : Loads σ} {M : Loads τ} (h : Related P L M) (rules : LinkRules) (q : Query) :
    P (q.ask L rules) (q.ask M rules) := by
  cases q with
  | check l ends label => exact h.check rules l ends label
  | resolve l source ends label => exact h.resolve rules l source ends label

/-- A step of a session: a question, or something else that is done to the document. -/
inductive Turn (σ : Type) where
  | ask (q : Query)
  | meanwhile (f : σ → σ)

def Turn.after (client : Client α σ) (rules : LinkRules) (st : Schooled σ) : Turn σ → Schooled σ
  | ask q => ((q.cached client rules).start st).2
  | meanwhile f => { st with engine := f st.engine }

/-- What is known, and the document, after all of the turns. -/
def session (client : Client α σ) (rules : LinkRules) (turns : List (Turn σ)) (s : σ) :
    Schooled σ :=
  turns.foldl (Turn.after client rules) (.fresh s)

/-! ## Kept answers are the answers -/

/-- Whatever is kept the client would answer again. -/
structure Schooled.Faithful (client : Client α σ) (st : Schooled σ) : Prop where
  columns : ∀ t cols, st.columns.get? t = some cols →
    (client.listColumns t st.engine).1 = .ok cols
  lineage : ∀ t source, st.lineage.get? t = some source →
    (client.summarySource t st.engine).1 = .ok source

/-- The first run ends as the second one, which keeps nothing. -/
def LinkRun.Unnoticed (client : Client α σ) (x : LinkRun σ β) (y : Run σ CompileError β) : Prop :=
  ∀ st e, st.Faithful client → client.SameSchema st.engine e →
    x.Pairs y st e
      (fun b c st' e' => b = c ∧ st'.Faithful client ∧ client.SameSchema st'.engine e')
      fun f f' st' _ => f = f' ∧ st'.Faithful client

namespace Schooled.Faithful

variable {client : Client α σ} {st : Schooled σ}

theorem fresh (client : Client α σ) (s : σ) : (Schooled.fresh s).Faithful client :=
  ⟨fun _ _ none => (nomatch none), fun _ _ none => (nomatch none)⟩

theorem keep (h : st.Faithful client) {e : σ} (keeps : client.KeepsSchema st.engine e) :
    Faithful client { st with engine := e } :=
  ⟨fun t cols known => keeps.columns t cols (h.columns t cols known),
    fun t source known => keeps.lineage t source (h.lineage t source known)⟩

theorem learn_columns (h : st.Faithful client) {t : TableRef} {cols : List ColumnInfo}
    (answer : (client.listColumns t st.engine).1 = .ok cols) :
    Faithful client { st with columns := st.columns.insert t cols } where
  columns u cs known := by
    rw [SortedMap.get?_insert] at known
    split at known
    · next same =>
      obtain rfl := Option.some.inj known
      exact same ▸ answer
    · exact h.columns u cs known
  lineage := h.lineage

theorem learn_lineage (h : st.Faithful client) {t : TableRef} {source : Option TableRef}
    (answer : (client.summarySource t st.engine).1 = .ok source) :
    Faithful client { st with lineage := st.lineage.insert t source } where
  columns := h.columns
  lineage u src known := by
    rw [SortedMap.get?_insert] at known
    split at known
    · next same =>
      obtain rfl := Option.some.inj known
      exact same ▸ answer
    · exact h.lineage u src known

end Schooled.Faithful

/-! ## Nobody can tell -/

section

variable {client : Client α σ}

/-- The value is what is kept of an answer, or the call is made and its answer kept. -/
theorem LinkRun.Unnoticed.of_load {x : LinkRun σ β} {call : σ → Reply σ β}
    {onFault : Fault → CompileError} (learn : β → Schooled σ → Schooled σ)
    (stands : ∀ s, client.StandsBy s (call s))
    (schema : ∀ s s', client.SameSchema s s' → (call s').1 = (call s).1)
    (learned : ∀ st b, st.Faithful client → (call st.engine).1 = .ok b →
      (learn b st).Faithful client ∧ (learn b st).engine = st.engine)
    (loads : ∀ st, st.Faithful client →
      (∃ b, x.start st = (.ok b, st) ∧ (call st.engine).1 = .ok b) ∨
      x.start st = match call st.engine with
        | (.ok b, s) => (.ok b, learn b { st with engine := s })
        | (.error f, s) => (.error (onFault f), { st with engine := s })) :
    Unnoticed client x (Run.ofReply call onFault) := by
  intro st e faithful same
  have asked := Run.start_ofReply call onFault e
  have stands' := stands e
  have answer := schema _ _ same
  rcases bare : call e with ⟨r, e'⟩
  rw [bare] at asked answer stands'
  rcases loads st faithful with ⟨b, known, kept⟩ | loaded
  · obtain rfl : r = .ok b := answer.trans kept
    exact .ok known asked ⟨rfl, faithful, same.trans stands'⟩
  · have stands := stands st.engine
    rcases full : call st.engine with ⟨r', s'⟩
    rw [full] at answer loaded stands
    obtain rfl : r = r' := answer
    cases r with
    | error f => exact .error loaded asked ⟨rfl, faithful.keep stands⟩
    | ok b =>
      have again : (call s').1 = .ok b := by rw [schema _ _ stands, full]
      obtain ⟨faithful', engine⟩ :=
        learned { st with engine := s' } b (faithful.keep stands.keeps) again
      refine .ok loaded asked ⟨rfl, faithful', ?_⟩
      rw [engine]
      exact stands.symm.trans (same.trans stands')

variable (lasting : client.Lasting)
include lasting

theorem LinkCheck.columns_unnoticed (t : TableRef) :
    LinkRun.Unnoticed client (columns client t) ((Loads.asking client).columns t) := by
  refine .of_load (fun cols st => { st with columns := st.columns.insert t cols })
    (lasting.columns t) (fun _ _ same => same.columns t)
    (fun st cols faithful answer => ⟨faithful.learn_columns answer, rfl⟩) fun st faithful => ?_
  cases known : st.columns.get? t with
  | some cols => exact .inl ⟨cols, columns_start client t known, faithful.columns t cols known⟩
  | none =>
    refine .inr ((columns_start_new client t known).trans ?_)
    rcases client.listColumns t st.engine with ⟨_ | _, _⟩ <;> rfl

theorem LinkCheck.summarySource_unnoticed (t : TableRef) :
    LinkRun.Unnoticed client (summarySource client t) ((Loads.asking client).lineage t) := by
  refine .of_load (fun source st => { st with lineage := st.lineage.insert t source })
    (lasting.lineage t) (fun _ _ same => same.lineage t)
    (fun st source faithful answer => ⟨faithful.learn_lineage answer, rfl⟩) fun st faithful => ?_
  cases known : st.lineage.get? t with
  | some source =>
    exact .inl ⟨source, summarySource_start client t known, faithful.lineage t source known⟩
  | none =>
    refine .inr ((summarySource_start_new client t known).trans ?_)
    rcases client.summarySource t st.engine with ⟨_ | _, _⟩ <;> rfl

theorem LinkRun.unnoticed_related :
    Loads.Related (fun {β} (x : LinkRun σ β) (y : Run σ CompileError β) => Unnoticed client x y)
      (.keeping client) (.asking client) where
  done _ _ _ faithful same := .ok rfl rfl ⟨rfl, faithful, same⟩
  fail _ _ _ _ faithful _ := .error rfl rfl ⟨rfl, faithful⟩
  bind hx hf := by
    intro st e faithful same
    refine Run.Pairs.bind ((hx st e faithful same).mono ?_ fun _ _ _ _ => id)
    rintro b _ st' e' ⟨rfl, faithful', same'⟩
    exact hf b st' e' faithful' same'
  columns := LinkCheck.columns_unnoticed lasting
  lineage := LinkCheck.summarySource_unnoticed lasting

theorem Query.unnoticed (rules : LinkRules) (q : Query) :
    LinkRun.Unnoticed client (q.cached client rules) (q.uncached client rules) := by
  rw [q.cached_eq]
  exact (LinkRun.unnoticed_related lasting).ask rules q

end

/-- A question leaves what is kept faithful, and ends as it would with nothing kept. -/
theorem LinkRun.Unnoticed.answer {client : Client α σ} {x : LinkRun σ β}
    {y : Run σ CompileError β} (h : Unnoticed client x y) {st : Schooled σ}
    (faithful : st.Faithful client) :
    (x.start st).2.Faithful client ∧ (x.start st).1 = (y.start st.engine).1 := by
  rcases h st st.engine faithful (.refl client _) with
    ⟨hx, hy, rfl, faithful', -⟩ | ⟨hx, hy, rfl, faithful'⟩
  · rw [hx, hy]
    exact ⟨faithful', rfl⟩
  · rw [hx, hy]
    exact ⟨faithful', rfl⟩

theorem session_faithful {client : Client α σ} (lasting : client.Lasting) (rules : LinkRules)
    {turns : List (Turn σ)}
    (kept : ∀ f, .meanwhile f ∈ turns → ∀ s, client.KeepsSchema s (f s)) (s : σ) :
    (session client rules turns s).Faithful client := by
  have run : ∀ st, st.Faithful client →
      (turns.foldl (Turn.after client rules) st).Faithful client := by
    induction turns with
    | nil => exact fun st faithful => faithful
    | cons turn turns ih =>
      intro st faithful
      refine ih (fun f hf => kept f (List.mem_cons_of_mem turn hf)) _ ?_
      cases turn with
      | ask q => exact ((q.unnoticed lasting rules).answer faithful).1
      | meanwhile f => exact faithful.keep (kept f List.mem_cons_self st.engine)
  exact run _ (.fresh client s)

/-! ## What is learned -/

/-- An answer of the client about one of its tables. -/
inductive Lesson where
  | columns (t : TableRef)
  | lineage (t : TableRef)

namespace Client

/-- Adds to a list what was learned of the answer. -/
def record (lessons : Except Fault β → List Lesson) (call : σ → Reply σ β) (s : σ × List Lesson) :
    Reply (σ × List Lesson) β :=
  ((call s.1).1, (call s.1).2, s.2 ++ lessons (call s.1).1)

def lesson (l : Lesson) : Except Fault β → List Lesson
  | .ok _ => [l]
  | .error _ => []

/-- The client, with a list of the questions about tables that it has answered. -/
def tallied (client : Client α σ) : Client α (σ × List Lesson) where
  createWidget t type view := record (fun _ => []) (client.createWidget t type view)
  applyMutations ms := record (fun _ => []) (client.applyMutations ms)
  fetchWidget id := record (fun _ => []) (client.fetchWidget id)
  loadLayout view := record (fun _ => []) (client.loadLayout view)
  listColumns t := record (lesson (.columns t)) (client.listColumns t)
  summarySource t := record (lesson (.lineage t)) (client.summarySource t)

theorem mirrors_tallied (client : Client α σ) : client.Mirrors Prod.fst client.tallied where
  createWidget _ _ _ _ := rfl
  fetchWidget _ _ := rfl
  listColumns _ _ := rfl
  summarySource _ _ := rfl

end Client

def Turn.tallied : Turn σ → Turn (σ × List Lesson)
  | ask q => ask q
  | meanwhile f => meanwhile fun s => (f s.1, s.2)

/-- The list changes nothing. -/
theorem session_tallied (client : Client α σ) (rules : LinkRules) (turns : List (Turn σ)) (s : σ) :
    (session client.tallied rules (turns.map Turn.tallied) (s, [])).map Prod.fst =
      session client rules turns s := by
  have related := (Compile.mirrors_populating client.mirrors_tallied).toSchooling.related
  have run : ∀ st : Schooled (σ × List Lesson),
      ((turns.map Turn.tallied).foldl (Turn.after client.tallied rules) st).map Prod.fst =
        turns.foldl (Turn.after client rules) (st.map Prod.fst) := by
    induction turns with
    | nil => exact fun st => rfl
    | cons turn turns ih =>
      intro st
      refine (ih _).trans (congrArg (turns.foldl (Turn.after client rules)) ?_)
      cases turn with
      | ask q =>
        have mirrored := related.ask rules q st
        rw [← q.cached_eq, ← q.cached_eq] at mirrored
        exact (congrArg Prod.snd mirrored).symm
      | meanwhile f => rfl
  exact run (.fresh (s, []))

/-- What has been learned is kept, and was learned once. -/
structure Schooled.Tallied (st : Schooled (σ × List Lesson)) : Prop where
  once : st.engine.2.Nodup
  columns : ∀ t, .columns t ∈ st.engine.2 → (st.columns.get? t).isSome
  lineage : ∀ t, .lineage t ∈ st.engine.2 → (st.lineage.get? t).isSome

/-- The run learns only what is not known. -/
def LinkRun.Frugal (x : LinkRun (σ × List Lesson) β) : Prop :=
  ∀ st, st.Tallied → (x.start st).2.Tallied

namespace Schooled.Tallied

variable {st : Schooled (σ × List Lesson)} (h : st.Tallied) (e : σ)
include h

theorem unchanged : Tallied { st with engine := (e, st.engine.2) } := ⟨h.once, h.columns, h.lineage⟩

theorem once_of_new {l : Lesson} (new : l ∉ st.engine.2) : (st.engine.2 ++ [l]).Nodup :=
  List.nodup_append.2 ⟨h.once, List.pairwise_singleton _ l, fun _ old _ last same =>
    new (List.mem_singleton.1 last ▸ same ▸ old)⟩

theorem learn_columns {t : TableRef} (cols : List ColumnInfo) (new : st.columns.get? t = none) :
    Tallied ⟨(e, st.engine.2 ++ [.columns t]), st.columns.insert t cols, st.lineage⟩ where
  once := by
    refine h.once_of_new fun old => ?_
    have known := h.columns t old
    rw [new] at known
    cases known
  columns u hu := by
    rw [SortedMap.get?_insert]
    split
    · rfl
    · next other =>
      refine h.columns u ((List.mem_append.1 hu).resolve_right fun last => ?_)
      exact other (Lesson.columns.inj (List.mem_singleton.1 last))
  lineage u hu := by
    refine h.lineage u ((List.mem_append.1 hu).resolve_right fun last => ?_)
    cases List.mem_singleton.1 last

theorem learn_lineage {t : TableRef} (source : Option TableRef) (new : st.lineage.get? t = none) :
    Tallied ⟨(e, st.engine.2 ++ [.lineage t]), st.columns, st.lineage.insert t source⟩ where
  once := by
    refine h.once_of_new fun old => ?_
    have known := h.lineage t old
    rw [new] at known
    cases known
  columns u hu := by
    refine h.columns u ((List.mem_append.1 hu).resolve_right fun last => ?_)
    cases List.mem_singleton.1 last
  lineage u hu := by
    rw [SortedMap.get?_insert]
    split
    · rfl
    · next other =>
      refine h.lineage u ((List.mem_append.1 hu).resolve_right fun last => ?_)
      exact other (Lesson.lineage.inj (List.mem_singleton.1 last))

end Schooled.Tallied

namespace LinkCheck

variable (client : Client α σ) (t : TableRef)

theorem columns_frugal : LinkRun.Frugal (columns client.tallied t) := by
  intro st tallied
  cases known : st.columns.get? t with
  | some cols =>
    rw [columns_start _ t known]
    exact tallied
  | none =>
    rw [columns_start_new _ t known]
    dsimp only [Client.tallied, Client.record]
    cases (client.listColumns t st.engine.1).1 with
    | ok cols => exact tallied.learn_columns _ cols known
    | error f =>
      rw [Client.lesson, List.append_nil]
      exact tallied.unchanged _

theorem summarySource_frugal : LinkRun.Frugal (summarySource client.tallied t) := by
  intro st tallied
  cases known : st.lineage.get? t with
  | some source =>
    rw [summarySource_start _ t known]
    exact tallied
  | none =>
    rw [summarySource_start_new _ t known]
    dsimp only [Client.tallied, Client.record]
    cases (client.summarySource t st.engine.1).1 with
    | ok source => exact tallied.learn_lineage _ source known
    | error f =>
      rw [Client.lesson, List.append_nil]
      exact tallied.unchanged _

end LinkCheck

theorem LinkRun.frugal_related (client : Client α σ) :
    Loads.Related (fun {β} (x _ : LinkRun (σ × List Lesson) β) => x.Frugal)
      (.keeping client.tallied) (.keeping client.tallied) where
  done _ _ := id
  fail _ _ _ := id
  bind {β γ x _ f _} hx hf := by
    intro st tallied
    have next := hx st tallied
    rw [Run.start_bind]
    rcases run : x.start st with ⟨_ | b, st'⟩ <;> rw [run] at next
    · exact next
    · exact hf b st' next
  columns := LinkCheck.columns_frugal client
  lineage := LinkCheck.summarySource_frugal client

theorem session_frugal (client : Client α σ) (rules : LinkRules) (turns : List (Turn σ)) (s : σ) :
    (session client.tallied rules (turns.map Turn.tallied) (s, [])).Tallied := by
  have run : ∀ st : Schooled (σ × List Lesson), st.Tallied →
      ((turns.map Turn.tallied).foldl (Turn.after client.tallied rules) st).Tallied := by
    induction turns with
    | nil => exact fun st tallied => tallied
    | cons turn turns ih =>
      intro st tallied
      refine ih _ ?_
      cases turn with
      | ask q =>
        have frugal := (LinkRun.frugal_related client).ask rules q
        rw [← q.cached_eq] at frugal
        exact frugal st tallied
      | meanwhile f => exact tallied.unchanged (f st.engine.1)
  exact run (.fresh (s, []))
    ⟨List.nodup_nil, fun _ none => (nomatch none), fun _ none => (nomatch none)⟩

/-! ## The whole session -/

/-- While the client stands by its answers, every question of a session is answered as it would be
with nothing kept, and no table is learned of twice, whatever the client. -/
theorem session_unnoticed (client : Client α σ) (rules : LinkRules) (turns : List (Turn σ)) (s : σ) :
    (client.Lasting → (∀ f, .meanwhile f ∈ turns → ∀ s, client.KeepsSchema s (f s)) →
      ∀ q : Query, ((q.cached client rules).start (session client rules turns s)).1 =
        ((q.uncached client rules).start (session client rules turns s).engine).1) ∧
    (session client.tallied rules (turns.map Turn.tallied) (s, [])).map Prod.fst =
      session client rules turns s ∧
    (session client.tallied rules (turns.map Turn.tallied) (s, [])).engine.2.Nodup := by
  refine ⟨fun lasting kept q => ?_, session_tallied client rules turns s,
    (session_frugal client rules turns s).once⟩
  exact ((q.unnoticed lasting rules).answer (session_faithful lasting rules kept s)).2

/-! ## Documents -/

namespace Document

variable {d e : Document α}

theorem sameSchema (tables : e.tables = d.tables) :
    (client : Client α (Document α)).SameSchema d e where
  columns t := by
    change e.tableCall _ t = d.tableCall _ t
    rw [tableCall, tableCall, tables]
  lineage t := by
    change e.tableCall _ t = d.tableCall _ t
    rw [tableCall, tableCall, tables]

/-- A document does not change by being asked. -/
theorem lasting : (client : Client α (Document α)).Lasting where
  columns t d := by
    have same := sameSchema (d := d) (e := { d with columnCalls := d.columnCalls + 1 }) rfl
    change client.StandsBy d (d.tableCall (·.columns) t, _)
    cases d.tableCall (·.columns) t with
    | ok cols => exact same
    | error f => exact same.keeps
  lineage t d := by
    change client.StandsBy d (d.tableCall (·.summaryOf) t, d)
    cases d.tableCall (·.summaryOf) t with
    | ok source => exact .refl client d
    | error f => exact (Client.SameSchema.refl client d).keeps

theorem tables_createWidget (t : TableRef) (type : WidgetType) (view : Option ViewRef)
    (d : Document α) : (createWidget t type view d).2.tables = d.tables := by
  rcases d.createWidget_snd t type view with ⟨spent, same⟩ | ⟨-, placed⟩
  · rw [same]
  · rw [placed, placed_snd]

end Document

/-- The orders of the shop are looked at once, for a check and for the link that follows it. -/
theorem session_unnoticed_shop :
    let rules : LinkRules := .ofConfig Document.shop.tableMap .standard
    let link : Link := .filteredBy (.id ⟨7⟩) "Total"
    let client : Client Rat (Document Rat) := Document.client
    let turns : List (Turn (Document Rat)) := [.ask (.check link ⟨⟨2⟩, ⟨1⟩⟩ "pane 1"),
      .meanwhile fun d => (Document.createWidget ⟨2⟩ .card (some ⟨1⟩) d).2]
    let st := session client rules turns Document.shop
    let q : Query := .resolve link ⟨7⟩ ⟨⟨2⟩, ⟨1⟩⟩ "pane 1"
    client.Lasting ∧
      (∀ f, .meanwhile f ∈ turns → ∀ d, client.KeepsSchema d (f d)) ∧
      ((q.uncached client rules).start st.engine).1 = .ok ⟨⟨7⟩, ⟨1⟩, .unset⟩ ∧
      ((q.cached client rules).start st).1 = .ok ⟨⟨7⟩, ⟨1⟩, .unset⟩ := by
  intro rules link client turns st q
  have kept : ∀ f, .meanwhile f ∈ turns → ∀ d, client.KeepsSchema d (f d) := by
    intro f hf d
    rcases List.mem_cons.1 hf with first | rest
    · cases first
    · obtain rfl := Turn.meanwhile.inj (List.mem_singleton.1 rest)
      exact (Document.sameSchema (Document.tables_createWidget _ _ _ d)).keeps
  have answer : ((q.uncached client rules).start st.engine).1 =
      .ok ⟨⟨7⟩, ⟨1⟩, .unset⟩ := rfl
  refine ⟨Document.lasting, kept, answer, ?_⟩
  rw [(session_unnoticed client rules turns Document.shop).1 Document.lasting kept q]
  exact answer

end PaneLayout
