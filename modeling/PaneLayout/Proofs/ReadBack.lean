import PaneLayout.ReadBack
import PaneLayout.Proofs.Recovery
import PaneLayout.Proofs.SortedMap
import PaneLayout.Proofs.Survey

set_option autoImplicit false

/-!
# Reading a page of a document

A page can be read back unless a widget on it or the table of a widget is missing, and the schema
that is read covers the tables at both ends of every link on it. Nothing but the count of column
calls changes.
-/

namespace PaneLayout

/-! ## Values of a map -/

namespace SortedMap

variable {κ ν : Type} [DecidableEq κ] [KeyOrder κ]

theorem mem_values {m : SortedMap κ ν} {v : ν} : v ∈ m.values ↔ ∃ k, m.get? k = some v := by
  rw [values, List.mem_map]
  constructor
  · rintro ⟨⟨k, v⟩, he, rfl⟩
    exact ⟨k, get?_eq_some_iff.2 he⟩
  · rintro ⟨k, hk⟩
    exact ⟨(k, v), get?_eq_some_iff.1 hk, rfl⟩

theorem mem_keys_ofList {es : List (κ × ν)} {k : κ} : k ∈ (ofList es).keys ↔ k ∈ es.map (·.1) := by
  rw [mem_keys]
  refine (contains_insertAll ∅ es k).trans (or_iff_right_of_imp fun none => ?_)
  cases none

end SortedMap

namespace ReadBack

variable {α : Type} {d : Document α}

theorem ask_yields {β : Type} {step : FailedStep} {call : Document α → Reply (Document α) β}
    {Q : β → Document α → Prop} {E : CompileError → Document α → Prop} {d : Document α} {b : β}
    {d' : Document α} (answer : call d = (.ok b, d')) (h : Q b d') :
    (ask step call).Yields d Q E := by
  rw [ask, Run.yields_ofReply, answer]
  exact h

theorem ask_fails {β : Type} {step : FailedStep} {call : Document α → Reply (Document α) β}
    {Q : β → Document α → Prop} {E : CompileError → Document α → Prop} {d : Document α} {f : Fault}
    {d' : Document α} (answer : call d = (.error f, d'))
    (h : E (.collaboratorFailure step f.message []) d') : (ask step call).Yields d Q E := by
  rw [ask, Run.yields_ofReply, answer]
  exact h

theorem mem_tablesMet {page : WidgetMap} {sources : SortedMap SectionId TableRef} {t : TableRef} :
    t ∈ tablesMet page sources ↔
      (∃ id w, page.get? id = some w ∧ w.table = t) ∨ ∃ id, sources.get? id = some t := by
  rw [tablesMet, SortedMap.mem_keys_ofList, List.map_map, List.mem_map]
  simp only [Function.comp_apply, exists_eq_right, List.mem_append, List.mem_map,
    SortedMap.mem_values]
  exact or_congr_left ⟨fun ⟨w, ⟨id, hw⟩, ht⟩ => ⟨id, w, hw, ht⟩,
    fun ⟨id, w, hw, ht⟩ => ⟨w, ⟨id, hw⟩, ht⟩⟩

/-! ## What is asked -/

theorem fetchLeaves_yields (ids : List SectionId) {ws : WidgetMap} (agrees : d.Agrees ws) :
    (fetchLeaves Document.client ids ws).Yields d
      (fun ws' d' => d' = d ∧ d.Agrees ws' ∧
        ∀ id, ws'.contains id = true ↔ ws.contains id = true ∨ id ∈ ids)
      fun _ d' => d' = d ∧ ∃ id ∈ ids, d.widget? id = none := by
  induction ids generalizing ws with
  | nil => exact ⟨rfl, agrees, fun id => (or_iff_left List.not_mem_nil).symm⟩
  | cons id ids ih =>
    unfold fetchLeaves
    rw [Run.yields_bind]
    refine ask_yields (b := d.widget? id) rfl ?_
    cases hw : d.widget? id with
    | none => exact ⟨rfl, id, List.mem_cons_self, hw⟩
    | some w =>
      refine (ih (agrees.insert hw)).mono ?_ ?_
      · rintro ws' d' ⟨rfl, agrees', has⟩
        refine ⟨rfl, agrees', fun i => ?_⟩
        rw [has, SortedMap.contains_insert, Bool.or_eq_true, decide_eq_true_eq, List.mem_cons,
          or_assoc, or_left_comm]
      · rintro _ d' ⟨rfl, i, hi, gone⟩
        exact ⟨rfl, i, List.mem_cons_of_mem id hi, gone⟩

/-- The tables of widgets elsewhere are those that the document has for them. -/
def Tells (d : Document α) (known : SortedMap SectionId TableRef) : Prop :=
  ∀ id t, known.get? id = some t → (d.widget? id).map (·.table) = some t

theorem Tells.insert {known : SortedMap SectionId TableRef} (h : Tells d known) {id : SectionId}
    {w : WidgetInfo} (hw : d.widget? id = some w) : Tells d (known.insert id w.table) := by
  intro i t ht
  rw [SortedMap.get?_insert] at ht
  split at ht
  · next same =>
    rw [same, hw, ← ht]
    rfl
  · exact h i t ht

/-- What is known of widgets elsewhere once the links of the widgets `ws` have been met. -/
structure MetSources (d : Document α) (page : WidgetMap) (ws : List WidgetInfo)
    (known known' : SortedMap SectionId TableRef) : Prop where
  tells : Tells d known'
  kept : ∀ id, known.contains id = true → known'.contains id = true
  met : ∀ w ∈ ws, ∀ raw, w.link = some raw → (d.widget? raw.source).isSome →
    page.contains raw.source = true ∨ known'.contains raw.source = true

theorem MetSources.cons {page : WidgetMap} {w : WidgetInfo} {ws : List WidgetInfo}
    {known known₁ known' : SortedMap SectionId TableRef} (h : MetSources d page ws known₁ known')
    (kept : ∀ id, known.contains id = true → known₁.contains id = true)
    (here : ∀ raw, w.link = some raw → (d.widget? raw.source).isSome →
      page.contains raw.source = true ∨ known₁.contains raw.source = true) :
    MetSources d page (w :: ws) known known' where
  tells := h.tells
  kept := fun id hid => h.kept id (kept id hid)
  met := List.forall_mem_cons.2
    ⟨fun raw hl there => (here raw hl there).imp_right (h.kept raw.source), h.met⟩

theorem fetchSources_yields (page : WidgetMap) (ws : List WidgetInfo)
    {known : SortedMap SectionId TableRef} (tells : Tells d known) :
    (fetchSources Document.client page ws known).Yields d
      (fun known' d' => d' = d ∧ MetSources d page ws known known') fun _ _ => False := by
  induction ws generalizing known with
  | nil => exact ⟨rfl, tells, fun _ => id, fun _ none => nomatch none⟩
  | cons w ws ih =>
    unfold fetchSources
    cases hl : w.link with
    | none =>
      refine (ih tells).mono (fun _ _ => And.imp_right fun met => met.cons (fun _ => id) ?_)
        fun _ _ => id
      rw [hl]
      exact fun raw none => nomatch none
    | some raw =>
      dsimp only
      split
      · next seen =>
        rw [Bool.or_eq_true] at seen
        refine (ih tells).mono (fun _ _ => And.imp_right fun met => met.cons (fun _ => id) ?_)
          fun _ _ => id
        intro raw' hraw _
        obtain rfl := Option.some.inj (hl.symm.trans hraw)
        exact seen
      · rw [Run.yields_bind]
        refine ask_yields (b := d.widget? raw.source) rfl ?_
        cases hs : d.widget? raw.source with
        | none =>
          refine (ih tells).mono (fun _ _ => And.imp_right fun met => met.cons (fun _ => id) ?_)
            fun _ _ => id
          intro raw' hraw there
          obtain rfl := Option.some.inj (hl.symm.trans hraw)
          rw [hs] at there
          cases there
        | some source =>
          refine (ih (tells.insert hs)).mono
            (fun _ _ => And.imp_right fun met => met.cons (fun id hid => ?_) ?_) fun _ _ => id
          · rw [SortedMap.contains_insert, hid, Bool.or_true]
          · intro raw' hraw _
            obtain rfl := Option.some.inj (hl.symm.trans hraw)
            rw [SortedMap.contains_insert, decide_eq_true rfl]
            exact .inr (Bool.true_or _)

/-! ## The schema -/

/-- The schema knows of no lineage that the tables do not have. -/
def Traces (ts : TableStore) (s : Schema) : Prop :=
  ∀ t source, s.summaryOf.get? t = some source →
    ∃ table, ts.get? t = some table ∧ table.summaryOf = some source

/-- The schema with what was asked of one more table. -/
def learn (s : Schema) (r : TableRef) (table : Table) : Schema :=
  { s with
    columns := s.columns.insert r table.columns
    summaryOf := match table.summaryOf with
      | some source => s.summaryOf.insert r source
      | none => s.summaryOf }

section
variable {ts : TableStore} {s : Schema} {r : TableRef} {table : Table}
  (traces : Traces ts s) (hr : ts.get? r = some table)
include traces hr

/-- A table without a source leaves the lineage as it is, which had none for it either. -/
theorem summaryOf_learn (t : TableRef) : (learn s r table).summaryOf.get? t =
    if t = r then table.summaryOf else s.summaryOf.get? t := by
  unfold learn
  cases hs : table.summaryOf with
  | some source => exact SortedMap.get?_insert ..
  | none =>
    dsimp only
    split
    · next same =>
      cases known : s.summaryOf.get? t with
      | none => rfl
      | some source =>
        obtain ⟨table', ht, hsource⟩ := traces t source known
        rw [same, hr] at ht
        obtain rfl := Option.some.inj ht
        rw [hs] at hsource
        cases hsource
    · rfl

theorem Traces.learn : Traces ts (learn s r table) := by
  intro t source ht
  rw [summaryOf_learn traces hr] at ht
  split at ht
  · next same => exact ⟨table, same ▸ hr, ht⟩
  · exact traces t source ht

theorem covers_learn {t : TableRef} (h : s.Covers ts t ∨ t = r) : (learn s r table).Covers ts t := by
  by_cases same : t = r
  · refine ⟨table, same ▸ hr, ?_, ?_⟩
    · rw [same]
      exact SortedMap.get?_insert_self ..
    · exact (summaryOf_learn traces hr t).trans (if_pos same)
  · obtain ⟨table', ht, columns, summary⟩ := h.resolve_right same
    refine ⟨table', ht, ?_, ?_⟩
    · exact (SortedMap.get?_insert_of_ne _ _ same).trans columns
    · exact ((summaryOf_learn traces hr t).trans (if_neg same)).trans summary

end

theorem fetchSchema_yields {ts : TableStore} (refs : List TableRef) {s : Schema}
    (traces : Traces ts s) (tables : d.tables = ts) :
    (fetchSchema Document.client refs s).Yields d
      (fun s' d' => d.OnlyRead d' ∧ (s'.tables = s.tables ∧ s'.sectionTables = s.sectionTables) ∧
        ∀ t, s.Covers ts t ∨ t ∈ refs → s'.Covers ts t)
      fun _ d' => d.OnlyRead d' ∧ ∃ t ∈ refs, ts.get? t = none := by
  induction refs generalizing s d with
  | nil => exact ⟨.refl d, ⟨rfl, rfl⟩, fun t h => h.resolve_right List.not_mem_nil⟩
  | cons r refs ih =>
    have asked : d.OnlyRead { d with columnCalls := d.columnCalls + 1 } := rfl
    unfold fetchSchema
    rw [Run.yields_bind]
    cases hr : ts.get? r with
    | none =>
      have columns : (Document.client : Client α (Document α)).listColumns r d =
          (.error (.plain ("Unknown table " ++ r.text)),
            { d with columnCalls := d.columnCalls + 1 }) := by
        simp only [Document.client, Document.tableCall, tables, hr]
      exact ask_fails columns ⟨asked, r, List.mem_cons_self, hr⟩
    | some table =>
      have columns : (Document.client : Client α (Document α)).listColumns r d =
          (.ok table.columns, { d with columnCalls := d.columnCalls + 1 }) := by
        simp only [Document.client, Document.tableCall, tables, hr]
      have summary : (Document.client : Client α (Document α)).summarySource r
          { d with columnCalls := d.columnCalls + 1 } =
          (.ok table.summaryOf, { d with columnCalls := d.columnCalls + 1 }) := by
        simp only [Document.client, Document.tableCall, tables, hr]
      refine ask_yields columns ?_
      rw [Run.yields_bind]
      refine ask_yields summary ?_
      refine (ih (traces.learn hr) (d := { d with columnCalls := d.columnCalls + 1 })
        tables).mono ?_ ?_
      · rintro s' d' ⟨read, rest, covers⟩
        refine ⟨asked.trans read, rest, fun t ht => covers t ?_⟩
        rw [List.mem_cons, ← or_assoc] at ht
        exact ht.imp_left (covers_learn traces hr)
      · rintro _ d' ⟨read, t, ht, gone⟩
        exact ⟨asked.trans read, t, List.mem_cons_of_mem r ht, gone⟩

/-- What is read of a page with the leaves `ids`. -/
structure Reads (d : Document α) (ids : List SectionId) (ws : WidgetMap) (s : Schema) : Prop where
  widgets : ∀ id ∈ ids, ws.get? id = d.widget? id
  owner : ∀ id ∈ ids, ∀ w, d.widget? id = some w → s.Covers d.tables w.table
  source : ∀ id ∈ ids, ∀ w raw source, d.widget? id = some w → w.link = some raw →
    d.widget? raw.source = some source →
    Decompile.sourceTable ws s raw.source = some source.table ∧ s.Covers d.tables source.table

/-- The table of a link's source is known, and it is one of those that are asked about. -/
theorem MetSources.sourceTable {page : WidgetMap} {sources : SortedMap SectionId TableRef}
    (h : MetSources d page page.values ∅ sources) (agrees : d.Agrees page) {s : Schema}
    (sections : s.sectionTables = sources) {w : WidgetInfo} (hw : w ∈ page.values) {raw : LinkTuple}
    (hl : w.link = some raw) {source : WidgetInfo} (hs : d.widget? raw.source = some source) :
    Decompile.sourceTable page s raw.source = some source.table ∧
      source.table ∈ tablesMet page sources := by
  rw [Decompile.sourceTable, mem_tablesMet]
  by_cases here : page.contains raw.source = true
  · have same := (agrees.get? here).1.trans hs
    rw [same]
    exact ⟨rfl, .inl ⟨_, source, same, rfl⟩⟩
  · have there : (d.widget? raw.source).isSome := by rw [hs]; rfl
    obtain ⟨t, ht⟩ := Option.isSome_iff_exists.1 ((h.met w hw raw hl there).resolve_left here)
    have told := h.tells raw.source t ht
    rw [hs] at told
    obtain rfl : source.table = t := Option.some.inj told
    have absent : page.get? raw.source = none := by simpa [SortedMap.contains] using here
    rw [absent, sections]
    exact ⟨ht, .inr ⟨_, ht⟩⟩

/-- Widgets and a schema that tell all that decompiling the page `n` asks of the document. -/
structure Suffices (d : Document α) (n : Native α SectionId) (tables : TableMap) (ws : WidgetMap)
    (s : Schema) : Prop extends Reads d n.leaves ws s where
  tables : s.tables = tables
  gone : ∀ id, d.widget? id = none → Decompile.sourceTable ws s id = none

/-- What keeps a page from being read back. -/
def Lacks (d : Document α) (view : ViewRef) : Prop :=
  ∀ n, d.layout? view = some n → (∃ id ∈ n.leaves, d.widget? id = none) ∨
    ∃ id w, d.widget? id = some w ∧ d.tables.get? w.table = none

/-- A table is asked about for a widget that the document has. -/
theorem MetSources.exists_widget {page : WidgetMap} {sources : SortedMap SectionId TableRef}
    (h : MetSources d page page.values ∅ sources) (agrees : d.Agrees page) {t : TableRef}
    (ht : t ∈ tablesMet page sources) : ∃ id w, d.widget? id = some w ∧ w.table = t := by
  rcases mem_tablesMet.1 ht with ⟨id, w, hw, table⟩ | ⟨id, hid⟩
  · exact ⟨id, w, agrees id w hw, table⟩
  · obtain ⟨w, hw, table⟩ := Option.map_eq_some_iff.1 (h.tells id t hid)
    exact ⟨id, w, hw, table⟩

theorem MetSources.suffices {n : Native α SectionId} {tables : TableMap} {page : WidgetMap}
    {sources : SortedMap SectionId TableRef} {s : Schema}
    (h : MetSources d page page.values ∅ sources) (agrees : d.Agrees page)
    (widgets : ∀ id ∈ n.leaves, page.get? id = d.widget? id) (same : s.tables = tables)
    (sections : s.sectionTables = sources)
    (covers : ∀ t ∈ tablesMet page sources, s.Covers d.tables t) : Suffices d n tables page s where
  widgets := widgets
  owner := fun id hid w hw =>
    covers w.table (mem_tablesMet.2 (.inl ⟨id, w, (widgets id hid).trans hw, rfl⟩))
  source := by
    intro id hid w raw source hw hl hs
    have hw := SortedMap.mem_values.2 ⟨id, (widgets id hid).trans hw⟩
    obtain ⟨table, asked⟩ := h.sourceTable agrees sections hw hl hs
    exact ⟨table, covers _ asked⟩
  tables := same
  gone := by
    intro id none
    have absent : page.get? id = Option.none := by
      cases hw : page.get? id with
      | none => rfl
      | some w => exact nomatch none.symm.trans (agrees id w hw)
    have untold : sources.get? id = Option.none := by
      cases ht : sources.get? id with
      | none => rfl
      | some t =>
        have told := h.tells id t ht
        rw [none] at told
        cases told
    rw [Decompile.sourceTable, absent, sections, untold]
    rfl

theorem readBackRun_suffices [Scalar α] (d : Document α) (o : DecompileOptions) (view : ViewRef)
    (tables : TableMap) :
    (readBackRun Document.client o view tables).Yields d
      (fun back d' => d.OnlyRead d' ∧ ∃ n ws s, d.layout? view = some n ∧
        back = decompile n ws s o ∧ Suffices d n tables ws s)
      fun _ d' => d.OnlyRead d' ∧ Lacks d view := by
  unfold readBackRun
  rw [Run.yields_bind]
  refine ask_yields (b := d.layout? view) rfl ?_
  rcases shown : d.layout? view with _ | n
  · exact ⟨.refl d, fun n hn => nomatch shown.symm.trans hn⟩
  have lacks (missing : (∃ id ∈ n.leaves, d.widget? id = none) ∨
      ∃ id w, d.widget? id = some w ∧ d.tables.get? w.table = none) : Lacks d view := by
    intro n' hn
    obtain rfl := Option.some.inj (shown.symm.trans hn)
    exact missing
  dsimp only
  rw [Run.yields_bind]
  refine (fetchLeaves_yields n.leaves fun _ _ none => by cases none).mono ?_ ?_
  · rintro page _ ⟨rfl, agrees, has⟩
    rw [Run.yields_bind]
    refine (fetchSources_yields page page.values fun _ _ none => by cases none).mono ?_
      fun _ _ => False.elim
    rintro sources d ⟨rfl, met⟩
    rw [Run.yields_bind]
    refine (fetchSchema_yields (s := ⟨tables, ∅, ∅, sources⟩) (tablesMet page sources)
      (fun _ _ none => by cases none) rfl).mono ?_ ?_
    · rintro s d' ⟨read, ⟨same, sections⟩, covers⟩
      have widgets : ∀ id ∈ n.leaves, page.get? id = d.widget? id := fun id hid =>
        (agrees.get? ((has id).2 (.inr hid))).1
      exact ⟨read, n, page, s, rfl, rfl,
        met.suffices agrees widgets same sections fun t ht => covers t (.inr ht)⟩
    · rintro _ d' ⟨read, t, ht, gone⟩
      obtain ⟨id, w, hw, rfl⟩ := met.exists_widget agrees ht
      exact ⟨read, lacks (.inr ⟨id, w, hw, gone⟩)⟩
  · rintro _ _ ⟨rfl, missing⟩
    exact ⟨.refl _, lacks (.inl missing)⟩

theorem readBackRun_yields [Scalar α] (o : DecompileOptions) {view : ViewRef} (tables : TableMap)
    {n : Native α SectionId} (shown : d.layout? view = some n)
    (there : ∀ id ∈ n.leaves, (d.widget? id).isSome)
    (owned : ∀ id w, d.widget? id = some w → d.tables.contains w.table = true) :
    (readBackRun Document.client o view tables).Yields d
      (fun back d' => d.OnlyRead d' ∧ ∃ ws s, back = decompile n ws s o ∧ Reads d n.leaves ws s)
      fun _ _ => False := by
  refine (readBackRun_suffices d o view tables).mono ?_ ?_
  · rintro back d' ⟨read, n', ws, s, hn, hback, told⟩
    obtain rfl := Option.some.inj (shown.symm.trans hn)
    exact ⟨read, ws, s, hback, told.toReads⟩
  · rintro _ d' ⟨-, lacks⟩
    rcases lacks n shown with ⟨id, hid, none⟩ | ⟨id, w, hw, none⟩
    · have here := there id hid
      rw [none] at here
      cases here
    · have here := owned id w hw
      rw [SortedMap.contains, none] at here
      cases here

end ReadBack
end PaneLayout
