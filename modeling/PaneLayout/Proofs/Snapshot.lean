import PaneLayout.Proofs.Guesses
import PaneLayout.Proofs.Options
import PaneLayout.Proofs.ReadBack

set_option autoImplicit false

/-!
# What is read of a document

Reading a page back asks for no more than a few widgets and tables. What comes of it is what comes of
decompiling the page with all that the document has, so a column that is shown by its number, or a
hint that was not taken, tells of something that the document itself lacks.
-/

namespace PaneLayout

variable {α : Type}

/-- The entries with these keys. -/
def SortedMap.restrict {κ ν : Type} [DecidableEq κ] [KeyOrder κ] (m : SortedMap κ ν)
    (ks : List κ) : SortedMap κ ν :=
  ⟨m.entries.filter fun e => e.1 ∈ ks, m.sorted.filter _⟩

theorem SortedMap.get?_restrict {κ ν : Type} [DecidableEq κ] [KeyOrder κ] (m : SortedMap κ ν)
    (ks : List κ) (k : κ) : (m.restrict ks).get? k = if k ∈ ks then m.get? k else none := by
  refine Option.ext fun v => ?_
  rw [get?_eq_some_iff, restrict, toList, List.mem_filter, decide_eq_true_eq]
  split
  · next here => rw [get?_eq_some_iff, toList, and_iff_left here]
  · next other => simp [other]

namespace Document

variable (d : Document α)

/-- The widgets of the leaves. -/
def widgetsOn (n : Native α SectionId) : WidgetMap := d.widgets.restrict n.leaves

/-- All that the document says, with names for its tables. -/
def fullSchema (tables : TableMap) : Schema := { d.schema with tables := tables }

theorem fullSchema_covers (tables : TableMap) {t : TableRef} {table : Table}
    (ht : d.tables.get? t = some table) : (d.fullSchema tables).Covers d.tables t := by
  obtain ⟨columns, summaryOf⟩ := d.schema_agrees t
  rw [ht] at columns summaryOf
  exact ⟨table, ht, columns, summaryOf⟩

theorem sourceTable_fullSchema (n : Native α SectionId) (tables : TableMap) (id : SectionId) :
    Decompile.sourceTable (d.widgetsOn n) (d.fullSchema tables) id =
      (d.widget? id).map (·.table) := by
  have sections : (d.fullSchema tables).sectionTables.get? id = (d.widget? id).map (·.table) :=
    SortedMap.get?_mapValues ..
  rw [Decompile.sourceTable, widgetsOn, SortedMap.get?_restrict, sections, widget?]
  split
  · cases d.widgets.get? id <;> rfl
  · rfl

end Document

/-! ## Columns by reference -/

/-- The column that a reference stands for. -/
def TableStore.columnAt? (ts : TableStore) (t : TableRef) (ref : ColumnRef) : Option ColumnInfo :=
  (ts.get? t).bind fun table => table.columns.find? fun c => c.ref == ref

/-- A column is shown by its id, and by its number if there is no such column. -/
def ColumnRef.shownAs (ref : ColumnRef) (c : Option ColumnInfo) : String :=
  match c with
  | some c => c.id
  | none => "#" ++ decimal ref.toNat

namespace Schema

variable {s s' : Schema} {ts : TableStore}

theorem Agrees.column?_eq {t : TableRef} (h : s.Agrees ts t) (ref : ColumnRef) :
    s.column? t ref = ts.columnAt? t ref := by
  rw [column?, h.columns, TableStore.columnAt?]
  cases ts.get? t <;> rfl

variable {source : Option TableRef} (h : ∀ t, source = some t → s.Agrees ts t)
include h

theorem bind_column?_eq (ref : ColumnRef) :
    (source.bind fun t => s.column? t ref) = source.bind fun t => ts.columnAt? t ref := by
  cases source with
  | none => rfl
  | some t => exact (h t rfl).column?_eq ref

theorem columnName_eq {ref : ColumnRef} (set : ref.isSet = true) :
    s.columnName source ref = ref.shownAs (source.bind fun t => ts.columnAt? t ref) := by
  rw [columnName, set, bind_column?_eq h]
  rfl

theorem columnName_congr (h' : ∀ t, source = some t → s'.Agrees ts t) (ref : ColumnRef) :
    s.columnName source ref = s'.columnName source ref := by
  cases set : ref.isSet with
  | false => rw [columnName, columnName, set]; rfl
  | true => rw [columnName_eq h set, columnName_eq h' set]

end Schema

/-! ## What a guess tells -/

/-- What the link says of columns and lineage is what the tables have: a column goes by its number
only if there is no such column, and a hint is taken wherever the tables give it. -/
structure Link.Tells (ts : TableStore) (hints : Bool) (owner : TableRef) (source : Option TableRef)
    (raw : LinkTuple) (l : Link) : Prop where
  sourceCol : raw.sourceCol.isSet = true → l.sourceCol =
    some (raw.sourceCol.shownAs (source.bind fun t => ts.columnAt? t raw.sourceCol))
  targetCol : raw.targetCol.isSet = true →
    l.targetCol = some (raw.targetCol.shownAs (ts.columnAt? owner raw.targetCol))
  listed : hints = true → raw.sourceCol.isSet = true → raw.targetCol.isSet = false →
    (l.kind = .listedIn ↔ ∃ c, (source.bind fun t => ts.columnAt? t raw.sourceCol) = some c ∧
      c.isListValued = true)
  lineage : hints = true → raw.sourceCol.isSet = false → raw.targetCol.isSet = false →
    (l.kind = .breakdownOf ↔
      ∃ t, source = some t ∧ (ts.get? owner).bind (·.summaryOf) = some t)

namespace Decompile

section
variable (s : Schema) (hints : Bool) (owner : TableRef) (source : Option TableRef)
  {raw : LinkTuple}

theorem sourceCol_candidates (set : raw.sourceCol.isSet = true) :
    (candidates s hints owner source raw).1.sourceCol =
      some (s.columnName source raw.sourceCol) := by
  unfold candidates
  rw [set]
  cases raw.targetCol.isSet with
  | false => dsimp only; split <;> rfl
  | true => rfl

theorem targetCol_candidates (set : raw.targetCol.isSet = true) :
    (candidates s hints owner source raw).1.targetCol =
      some (s.columnName (some owner) raw.targetCol) := by
  unfold candidates
  rw [set]
  cases raw.sourceCol.isSet <;> rfl

theorem kind_candidates_column (set : raw.sourceCol.isSet = true)
    (unset : raw.targetCol.isSet = false) :
    (candidates s true owner source raw).1.kind = .listedIn ↔
      ∃ c, (source.bind fun t => s.column? t raw.sourceCol) = some c ∧ c.isListValued = true := by
  unfold candidates
  rw [set, unset]
  cases source.bind fun t => s.column? t raw.sourceCol with
  | none => simp [Link.kind]
  | some c => cases listed : c.isListValued <;> simp [Link.kind, listed]

theorem kind_candidates_cursor (unset : raw.sourceCol.isSet = false)
    (unset' : raw.targetCol.isSet = false) :
    (candidates s true owner source raw).1.kind = .breakdownOf ↔
      ∃ t, source = some t ∧ s.summaryOf.get? owner = some t := by
  unfold candidates
  rw [unset, unset']
  cases source with
  | none => simp [Link.kind]
  | some t => by_cases same : s.summaryOf.get? owner = some t <;> simp [Link.kind, same]

end

section
variable {s s' : Schema} {ts : TableStore} {owner : TableRef} {source : Option TableRef}
  (ofOwner : s.Agrees ts owner) (ofSource : ∀ t, source = some t → s.Agrees ts t)
include ofOwner ofSource

theorem candidates_congr (ofOwner' : s'.Agrees ts owner)
    (ofSource' : ∀ t, source = some t → s'.Agrees ts t) (hints : Bool) (raw : LinkTuple) :
    candidates s hints owner source raw = candidates s' hints owner source raw := by
  have target : ∀ t, some owner = some t → s.Agrees ts t := by rintro _ ⟨⟩; exact ofOwner
  have target' : ∀ t, some owner = some t → s'.Agrees ts t := by rintro _ ⟨⟩; exact ofOwner'
  unfold candidates
  rw [Schema.columnName_congr ofSource ofSource', Schema.columnName_congr target target',
    Schema.bind_column?_eq ofSource, Schema.bind_column?_eq ofSource', ofOwner.summaryOf,
    ofOwner'.summaryOf]

theorem tells_candidates (hints : Bool) (raw : LinkTuple) :
    (candidates s hints owner source raw).1.Tells ts hints owner source raw where
  sourceCol := fun set => by
    rw [sourceCol_candidates s hints owner source set, Schema.columnName_eq ofSource set]
  targetCol := fun set => by
    have target : ∀ t, some owner = some t → s.Agrees ts t := by rintro _ ⟨⟩; exact ofOwner
    rw [targetCol_candidates s hints owner source set, Schema.columnName_eq target set,
      Option.bind_some]
  listed := by
    rintro rfl set unset
    rw [kind_candidates_column s owner source set unset, Schema.bind_column?_eq ofSource]
  lineage := by
    rintro rfl unset unset'
    rw [kind_candidates_cursor s owner source unset unset', ofOwner.summaryOf]

end

/-! ## Two readings of a page -/

section
variable [Scalar α]

theorem layoutWith_congr (flatten : Bool) {leaf leaf' : SectionId → Pane} {n : Native α SectionId}
    (same : ∀ id ∈ n.leaves, leaf id = leaf' id) :
    layoutWith flatten leaf n = layoutWith flatten leaf' n := by
  induction n with
  | leaf id => rw [layoutWith, layoutWith, same id (List.mem_singleton_self id)]
  | split axis ratio a b iha ihb =>
    obtain ⟨first, second⟩ := List.forall_mem_append.1 same
    rw [layoutWith, layoutWith, iha first, ihb second]

theorem decompile_congr {n : Native α SectionId} {ws ws' : WidgetMap} {s s' : Schema}
    {o : DecompileOptions} (same : ∀ id ∈ n.leaves, readLeaf ws s o id = readLeaf ws' s' o id) :
    decompile n ws s o = decompile n ws' s' o := by
  have layout := layoutWith_congr o.flattenChains fun id hid => congrArg (·.pane) (same id hid)
  have widgets := List.flatMap_congr fun id hid => congrArg (·.summaries) (same id hid)
  have links := List.flatMap_congr fun id hid => congrArg (·.links) (same id hid)
  dsimp only [decompile]
  rw [layout, widgets, links]

end

end Decompile

/-- Every link that is recovered is that of a leaf of the page, and tells what the document has. -/
def Decompiled.Tells (back : Decompiled α) (d : Document α) (n : Native α SectionId)
    (hints : Bool) : Prop :=
  ∀ r ∈ back.links, ∃ id ∈ n.leaves, ∃ w, d.widget? id = some w ∧ w.link = some r.raw ∧
    r.id = w.id ∧ r.guess.Tells d.tables hints w.table
      ((d.widget? r.raw.source).map (·.table)) r.raw

namespace ReadBack

variable {d : Document α} {n : Native α SectionId} {tables : TableMap} {ws ws' : WidgetMap}
  {s s' : Schema}

namespace Suffices

theorem sourceTable_eq (h : Suffices d n tables ws s) {id : SectionId} (hid : id ∈ n.leaves)
    {w : WidgetInfo} (hw : d.widget? id = some w) {raw : LinkTuple} (hl : w.link = some raw) :
    Decompile.sourceTable ws s raw.source = (d.widget? raw.source).map (·.table) := by
  cases hs : d.widget? raw.source with
  | none => exact h.gone raw.source hs
  | some source => exact (h.source id hid w raw source hw hl hs).1

theorem agrees_source (h : Suffices d n tables ws s) {id : SectionId} (hid : id ∈ n.leaves)
    {w : WidgetInfo} (hw : d.widget? id = some w) {raw : LinkTuple} (hl : w.link = some raw)
    (t : TableRef) (ht : (d.widget? raw.source).map (·.table) = some t) : s.Agrees d.tables t := by
  obtain ⟨source, hs, rfl⟩ := Option.map_eq_some_iff.1 ht
  exact (h.source id hid w raw source hw hl hs).2.agrees

/-- Whatever suffices gives the same. -/
theorem readLeaf_eq (h : Suffices d n tables ws s) (h' : Suffices d n tables ws' s')
    (o : DecompileOptions) {id : SectionId} (hid : id ∈ n.leaves) :
    Decompile.readLeaf ws s o id = Decompile.readLeaf ws' s' o id := by
  unfold Decompile.readLeaf
  rw [h.widgets id hid, h'.widgets id hid]
  rcases hw : d.widget? id with _ | w
  · rfl
  have summary : Decompile.summary s id w = Decompile.summary s' id w := by
    rw [Decompile.summary, Decompile.summary, h.tables, h'.tables]
  dsimp only
  rw [summary]
  rcases hl : w.link with _ | raw
  · rfl
  have recover : Decompile.recover ws s o.schemaHints w raw =
      Decompile.recover ws' s' o.schemaHints w raw := by
    rw [Decompile.recover, Decompile.recover, h.sourceTable_eq hid hw hl,
      h'.sourceTable_eq hid hw hl,
      Decompile.candidates_congr (h.owner id hid w hw).agrees (h.agrees_source hid hw hl)
        (h'.owner id hid w hw).agrees (h'.agrees_source hid hw hl)]
  dsimp only
  rw [recover]

/-- All that the document says suffices, if anything does. -/
theorem full (h : Suffices d n tables ws s) :
    Suffices d n tables (d.widgetsOn n) (d.fullSchema tables) where
  widgets := fun id hid => by
    rw [Document.widgetsOn, SortedMap.get?_restrict, if_pos hid]
    rfl
  owner := by
    intro id hid w hw
    obtain ⟨table, ht, -⟩ := h.owner id hid w hw
    exact d.fullSchema_covers tables ht
  source := by
    intro id hid w raw source hw hl hs
    obtain ⟨table, ht, -⟩ := (h.source id hid w raw source hw hl hs).2
    refine ⟨?_, d.fullSchema_covers tables ht⟩
    rw [d.sourceTable_fullSchema, hs]
    rfl
  tables := rfl
  gone := fun id none => by
    rw [d.sourceTable_fullSchema, none]
    rfl

variable [Scalar α]

theorem decompile_eq (h : Suffices d n tables ws s) (o : DecompileOptions) :
    decompile n ws s o = decompile n (d.widgetsOn n) (d.fullSchema tables) o :=
  Decompile.decompile_congr fun _ hid => h.readLeaf_eq h.full o hid

theorem tells (h : Suffices d n tables ws s) (o : DecompileOptions) :
    (decompile n ws s o).Tells d n o.schemaHints := by
  intro r hr
  rw [links_decompile, List.mem_filterMap] at hr
  obtain ⟨id, hid, found⟩ := hr
  rw [h.widgets id hid] at found
  obtain ⟨w, hw, found⟩ := Option.bind_eq_some_iff.1 found
  obtain ⟨raw, hl, rfl⟩ := Option.map_eq_some_iff.1 found
  refine ⟨id, hid, w, hw, hl, rfl, ?_⟩
  rw [Decompile.recover, h.sourceTable_eq hid hw hl]
  exact Decompile.tells_candidates (h.owner id hid w hw).agrees (h.agrees_source hid hw hl) _ _

end Suffices
end ReadBack

variable [Scalar α]

/-- A page that is read back is decompiled as if everything about the document were known, and the
document is left as it was. A link that is recovered goes by the number of a column only if the
document lacks the column or the source, and misses a hint only if the document does not give it. -/
theorem readBack_full {d d' : Document α} {config : CompilerConfig} {view : ViewRef}
    {tables : TableMap} {back : Decompiled α}
    (read : readBack Document.client config view tables d = (.ok back, d')) :
    d.OnlyRead d' ∧ ∃ n, d.layout? view = some n ∧
      back = decompile n (d.widgetsOn n) (d.fullSchema tables) config.reverse ∧
      back.Tells d n config.reverse.schemaHints := by
  obtain ⟨only, n, ws, s, shown, rfl, told⟩ :=
    (ReadBack.readBackRun_suffices d config.reverse view tables).ok read
  exact ⟨only, n, shown, told.decompile_eq config.reverse, told.tells config.reverse⟩

/-- The shop with a second page, on which the customers are listed by a column of the orders. -/
def Document.listing : Document Rat :=
  (shop.addWidget ⟨2⟩ ((WidgetInfo.create ⟨8⟩ ⟨2⟩ .grid).withLink (some ⟨⟨7⟩, ⟨1⟩, .unset⟩))).setPage
    ⟨2⟩ (some (.leaf ⟨8⟩))

/-- The source is on the other page, so its table is asked about on its account alone. -/
theorem readBack_full_listing : ∃ back d',
    let d := Document.listing
    let config : CompilerConfig := ⟨true, true, true, false, true⟩
    readBack Document.client config ⟨2⟩ ∅ d = (.ok back, d') ∧
    back.links = [⟨⟨8⟩, ⟨⟨7⟩, ⟨1⟩, .unset⟩, .filteredBy (.id ⟨7⟩) "Total", [.listedIn]⟩] ∧
    d.OnlyRead d' ∧ ∃ n, d.layout? ⟨2⟩ = some n ∧
      back = decompile n (d.widgetsOn n) (d.fullSchema ∅) config.reverse ∧
      back.Tells d n config.reverse.schemaHints := by
  obtain ⟨back, d', read, links⟩ := exists_ok_of_test
    (fun back _ => decide (back.links =
      [⟨⟨8⟩, ⟨⟨7⟩, ⟨1⟩, .unset⟩, .filteredBy (.id ⟨7⟩) "Total", [.listedIn]⟩]))
    (x := readBack Document.client ⟨true, true, true, false, true⟩ ⟨2⟩ ∅ Document.listing)
    (by decide +kernel)
  exact ⟨back, d', read, of_decide_eq_true links, readBack_full read⟩

end PaneLayout
