import PaneLayout.Document.Basic
import PaneLayout.LinkCheck
import PaneLayout.Proofs.Run

set_option autoImplicit false

/-!
# Links that fit their tables

`Link.Fits` says of a link and the tables at its ends what a check of it asks of the document: its
columns are there, of the right kind, and its lineage holds. On a document a check succeeds exactly
for the links that fit, whatever has been learned before, and leaves everything but the count of
column calls as it was.
-/

namespace PaneLayout

variable {α : Type}

/-- The second document is the first one after some columns were asked for. -/
def Document.OnlyRead (d d' : Document α) : Prop := d' = { d with columnCalls := d'.columnCalls }

theorem Document.OnlyRead.refl (d : Document α) : d.OnlyRead d := rfl

theorem Document.OnlyRead.trans {d e f : Document α} (h : d.OnlyRead e) (h' : e.OnlyRead f) :
    d.OnlyRead f := by
  unfold OnlyRead at *
  rw [h', h]

abbrev TableStore := SortedMap TableRef Table

/-- A column of a table, the row id among them. -/
def TableStore.column? (ts : TableStore) (t : TableRef) (id : String) : Option ColumnInfo :=
  if id == rowIdColumn then some .rowId
  else (ts.get? t).bind fun table => table.columns.find? fun c => c.id == id

/-! ## Fitting links -/

structure Link.Fits (ts : TableStore) (rules : LinkRules) (ends : LinkEnds) (l : Link) : Prop where
  source : ∀ id, l.sourceCol = some id → ∃ c, TableStore.column? ts ends.source id = some c ∧
    (rules.columnKinds = true → (l.kind = .listedIn → c.isListValued = true) ∧
      (l.kind = .filteredBy → c.isListValued = false))
  target : ∀ id, l.targetCol = some id → (TableStore.column? ts ends.owner id).isSome
  lineage : rules.lineage = true → l.kind = .breakdownOf →
    ∃ table, ts.get? ends.owner = some table ∧ table.summaryOf = some ends.source

instance (ts : TableStore) (rules : LinkRules) (ends : LinkEnds) (l : Link) :
    Decidable (l.Fits ts rules ends) :=
  decidable_of_iff
    ((∀ id ∈ l.sourceCol, ∃ c ∈ TableStore.column? ts ends.source id,
        rules.columnKinds = true → (l.kind = .listedIn → c.isListValued = true) ∧
          (l.kind = .filteredBy → c.isListValued = false)) ∧
      (∀ id ∈ l.targetCol, (TableStore.column? ts ends.owner id).isSome) ∧
      (rules.lineage = true → l.kind = .breakdownOf →
        ∃ table ∈ ts.get? ends.owner, table.summaryOf = some ends.source))
    ⟨fun ⟨source, target, lineage⟩ => ⟨source, target, lineage⟩,
      fun ⟨source, target, lineage⟩ => ⟨source, target, lineage⟩⟩

/-- The references of a link's columns, unset where it has none. -/
def Link.columnRefs (ts : TableStore) (ends : LinkEnds) (l : Link) : ColumnRef × ColumnRef :=
  (((l.sourceCol.bind (TableStore.column? ts ends.source)).map (·.ref)).getD .unset,
    ((l.targetCol.bind (TableStore.column? ts ends.owner)).map (·.ref)).getD .unset)

theorem Link.fits_withSource {ts : TableStore} {rules : LinkRules} {ends : LinkEnds} {l : Link}
    (s : LinkTarget) (h : l.Fits ts rules ends) : (l.withSource s).Fits ts rules ends :=
  ⟨by simpa using h.source, by simpa using h.target, by simpa using h.lineage⟩

theorem Link.columnRefs_withSource (ts : TableStore) (ends : LinkEnds) (l : Link) (s : LinkTarget) :
    (l.withSource s).columnRefs ts ends = l.columnRefs ts ends := by
  simp [Link.columnRefs]

namespace LinkCheck

theorem kindViolation?_eq_none_iff (l : Link) (c : ColumnInfo) (label : String) :
    kindViolation? l c label = none ↔ (l.kind = .listedIn → c.isListValued = true) ∧
      (l.kind = .filteredBy → c.isListValued = false) := by
  cases l <;> cases h : c.isListValued <;> simp [kindViolation?, Link.kind, h]

/-! ## What has been learned -/

/-- What has been learned of the schema is what the tables `ts` of the document say. -/
structure Knows (ts : TableStore) (s : Schooled (Document α)) : Prop where
  tables : s.engine.tables = ts
  columns : ∀ t cols, s.columns.get? t = some cols →
    ∃ table, ts.get? t = some table ∧ table.columns = cols
  lineage : ∀ t source, s.lineage.get? t = some source →
    ∃ table, ts.get? t = some table ∧ table.summaryOf = source

theorem knows_fresh (d : Document α) : Knows d.tables (.fresh d) where
  tables := rfl
  columns := fun t cols h => by cases h
  lineage := fun t source h => by cases h

/-- A step that learned something and changed nothing. -/
structure Learns (ts : TableStore) (s s' : Schooled (Document α)) : Prop where
  knows : Knows ts s'
  read : s.engine.OnlyRead s'.engine

variable {ts : TableStore} {s s' s'' : Schooled (Document α)}

theorem Knows.stay (h : Knows ts s) : Learns ts s s := ⟨h, .refl _⟩

theorem Learns.trans (h : Learns ts s s') (h' : Learns ts s' s'') : Learns ts s s'' :=
  ⟨h'.knows, h.read.trans h'.read⟩

/-! ## Checks on a document -/

theorem columns_yields (t : TableRef) (k : Knows ts s) :
    (columns Document.client t).Yields s
      (fun cols s' => Learns ts s s' ∧ ∃ table, ts.get? t = some table ∧ table.columns = cols)
      (fun _ s' => Learns ts s s' ∧ ts.get? t = none) := by
  obtain rfl := k.tables
  unfold columns
  rw [Run.yields_bind]
  refine .of_ok (Run.start_get s) ?_
  cases hc : s.columns.get? t with
  | some cols => exact ⟨k.stay, k.columns t cols hc⟩
  | none =>
    simp only [Run.yields_bind, LinkRun.ask, Run.yields_ofReply, Document.client,
      Document.tableCall]
    cases ht : s.engine.tables.get? t with
    | none => exact ⟨⟨⟨rfl, k.columns, k.lineage⟩, rfl⟩, rfl⟩
    | some table =>
      refine .of_ok (Run.start_modify ..) ⟨⟨⟨rfl, fun u cols hu => ?_, k.lineage⟩, rfl⟩,
        table, rfl, rfl⟩
      simp only [SortedMap.get?_insert] at hu
      split at hu
      · next e => exact ⟨table, e ▸ ht, Option.some.inj hu⟩
      · exact k.columns u cols hu

theorem summarySource_yields (t : TableRef) (k : Knows ts s) :
    (summarySource Document.client t).Yields s
      (fun source s' => Learns ts s s' ∧ ∃ table, ts.get? t = some table ∧ table.summaryOf = source)
      (fun _ s' => Learns ts s s' ∧ ts.get? t = none) := by
  obtain rfl := k.tables
  unfold summarySource
  rw [Run.yields_bind]
  refine .of_ok (Run.start_get s) ?_
  cases hc : s.lineage.get? t with
  | some source => exact ⟨k.stay, k.lineage t source hc⟩
  | none =>
    simp only [Run.yields_bind, LinkRun.ask, Run.yields_ofReply, Document.client,
      Document.tableCall]
    cases ht : s.engine.tables.get? t with
    | none => exact ⟨⟨⟨rfl, k.columns, k.lineage⟩, rfl⟩, rfl⟩
    | some table =>
      refine .of_ok (Run.start_modify ..) ⟨⟨⟨rfl, k.columns, fun u source hu => ?_⟩, rfl⟩,
        table, rfl, rfl⟩
      simp only [SortedMap.get?_insert] at hu
      split at hu
      · next e => exact ⟨table, e ▸ ht, Option.some.inj hu⟩
      · exact k.lineage u source hu

variable (rules : LinkRules)

theorem column_yields (t : TableRef) (id label : String) (k : Knows ts s) :
    (column Document.client rules t id label).Yields s
      (fun c s' => Learns ts s s' ∧ TableStore.column? ts t id = some c)
      (fun _ s' => Learns ts s s' ∧ TableStore.column? ts t id = none) := by
  unfold column TableStore.column?
  split
  · exact ⟨k.stay, rfl⟩
  · rw [Run.yields_bind]
    refine (columns_yields t k).mono ?_ ?_
    · rintro cols s' ⟨learned, table, ht, rfl⟩
      simp only [ht, Option.bind_some]
      split
      · next c hc => exact ⟨learned, hc⟩
      · next hc => exact ⟨learned, hc⟩
    · rintro e s' ⟨learned, ht⟩
      exact ⟨learned, by simp [ht]⟩

theorem sourceColumn_yields (l : Link) (ends : LinkEnds) (label : String) (k : Knows ts s) :
    (sourceColumn Document.client rules l ends label).Yields s
      (fun ref s' => Learns ts s s' ∧ ref = (l.columnRefs ts ends).1 ∧
        ∀ id, l.sourceCol = some id → ∃ c, TableStore.column? ts ends.source id = some c ∧
          (rules.columnKinds = true → (l.kind = .listedIn → c.isListValued = true) ∧
            (l.kind = .filteredBy → c.isListValued = false)))
      (fun _ s' => Learns ts s s' ∧ ¬ l.Fits ts rules ends) := by
  unfold sourceColumn
  cases hl : l.sourceCol with
  | none => exact ⟨k.stay, by simp [Link.columnRefs, hl], by simp⟩
  | some id =>
    simp only [Run.yields_bind]
    refine (column_yields rules ends.source id label k).mono ?_ ?_
    · rintro c s' ⟨learned, hc⟩
      split
      · next v hv =>
        refine ⟨learned, fun fits => ?_⟩
        obtain ⟨c', hc', kinds⟩ := fits.source id hl
        obtain rfl := Option.some.inj (hc.symm.trans hc')
        split at hv
        · next on => simp [(kindViolation?_eq_none_iff l c label).2 (kinds on)] at hv
        · cases hv
      · next hv =>
        refine ⟨learned, by simp [Link.columnRefs, hl, hc], fun id' h => ?_⟩
        obtain rfl := Option.some.inj h
        refine ⟨c, hc, fun on => ?_⟩
        rw [if_pos on] at hv
        exact (kindViolation?_eq_none_iff l c label).1 hv
    · rintro e s' ⟨learned, hc⟩
      refine ⟨learned, fun fits => ?_⟩
      obtain ⟨c, hc', -⟩ := fits.source id hl
      simp [hc] at hc'

theorem targetColumn_yields (l : Link) (ends : LinkEnds) (label : String) (k : Knows ts s) :
    (targetColumn Document.client rules l ends label).Yields s
      (fun ref s' => Learns ts s s' ∧ ref = (l.columnRefs ts ends).2 ∧
        ∀ id, l.targetCol = some id → (TableStore.column? ts ends.owner id).isSome)
      (fun _ s' => Learns ts s s' ∧ ¬ l.Fits ts rules ends) := by
  unfold targetColumn
  cases hl : l.targetCol with
  | none => exact ⟨k.stay, by simp [Link.columnRefs, hl], by simp⟩
  | some id =>
    simp only [Run.yields_bind]
    refine (column_yields rules ends.owner id label k).mono ?_ ?_
    · rintro c s' ⟨learned, hc⟩
      exact ⟨learned, by simp [Link.columnRefs, hl, hc], by simp [hc]⟩
    · rintro e s' ⟨learned, hc⟩
      refine ⟨learned, fun fits => ?_⟩
      simpa [hc] using fits.target id hl

theorem checkLineage_yields (l : Link) (ends : LinkEnds) (label : String) (k : Knows ts s) :
    (checkLineage Document.client rules l ends label).Yields s
      (fun _ s' => Learns ts s s' ∧ (rules.lineage = true → l.kind = .breakdownOf →
        ∃ table, ts.get? ends.owner = some table ∧ table.summaryOf = some ends.source))
      (fun _ s' => Learns ts s s' ∧ ¬ l.Fits ts rules ends) := by
  unfold checkLineage
  split
  · next on =>
    simp only [Bool.and_eq_true, decide_eq_true_eq] at on
    rw [Run.yields_bind]
    refine (summarySource_yields ends.owner k).mono ?_ ?_
    · rintro source s' ⟨learned, table, ht, rfl⟩
      split
      · next ne =>
        refine ⟨learned, fun fits => ?_⟩
        obtain ⟨table', ht', same⟩ := fits.lineage on.1 on.2
        obtain rfl := Option.some.inj (ht.symm.trans ht')
        exact ne same
      · next eq => exact ⟨learned, fun _ _ => ⟨table, ht, by simpa using eq⟩⟩
    · rintro e s' ⟨learned, ht⟩
      refine ⟨learned, fun fits => ?_⟩
      obtain ⟨table, ht', -⟩ := fits.lineage on.1 on.2
      simp [ht] at ht'
  · next off =>
    simp only [Bool.and_eq_true, decide_eq_true_eq, not_and] at off
    exact ⟨k.stay, fun on kind => absurd kind (off on)⟩

/-- A check gives the columns of the links that fit and refuses all others. -/
theorem check_yields (l : Link) (ends : LinkEnds) (label : String) (k : Knows ts s) :
    (check Document.client rules l ends label).Yields s
      (fun refs s' => Learns ts s s' ∧ l.Fits ts rules ends ∧ refs = l.columnRefs ts ends)
      (fun _ s' => Learns ts s s' ∧ ¬ l.Fits ts rules ends) := by
  simp only [check, Run.yields_bind]
  refine (sourceColumn_yields rules l ends _ k).mono ?_ fun _ _ => id
  rintro source s₁ ⟨learned₁, rfl, fitsSource⟩
  refine (targetColumn_yields rules l ends _ learned₁.knows).mono ?_
    fun _ _ h => ⟨learned₁.trans h.1, h.2⟩
  rintro target s₂ ⟨learned₂, rfl, fitsTarget⟩
  refine (checkLineage_yields rules l ends _ learned₂.knows).mono ?_
    fun _ _ h => ⟨(learned₁.trans learned₂).trans h.1, h.2⟩
  rintro - s₃ ⟨learned₃, fitsLineage⟩
  exact ⟨(learned₁.trans learned₂).trans learned₃, ⟨fitsSource, fitsTarget, fitsLineage⟩, rfl⟩

theorem resolve_yields (l : Link) (source : SectionId) (ends : LinkEnds) (label : String)
    (k : Knows ts s) :
    (resolve Document.client rules l source ends label).Yields s
      (fun t s' => Learns ts s s' ∧ l.Fits ts rules ends ∧
        t = ⟨source, (l.columnRefs ts ends).1, (l.columnRefs ts ends).2⟩)
      (fun _ s' => Learns ts s s' ∧ ¬ l.Fits ts rules ends) := by
  simp only [resolve, Run.yields_bind]
  refine (check_yields rules l ends label k).mono ?_ fun _ _ => id
  rintro refs s' ⟨learned, fits, rfl⟩
  exact ⟨learned, fits, rfl⟩

end LinkCheck
end PaneLayout
