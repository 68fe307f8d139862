import Mathlib.Data.List.Nodup
import PaneLayout.Decompile
import PaneLayout.Layout.Validate
import PaneLayout.Proofs.LinkCheck

set_option autoImplicit false

/-!
# Links recovered from their tuples

The guess that is made for a stored link need not be the link that was written, but it fits the same
tables and is stored as the same tuple. Column types and lineage, which decide between guesses, are
what a link is checked against.
-/

namespace PaneLayout

/-- The columns of a table have references of their own. -/
structure Table.Numbered (table : Table) : Prop where
  distinct : (table.columns.map (·.ref)).Nodup
  set : ∀ c ∈ table.columns, c.ref.isSet = true

/-- The reference is stored for a column that can be named. -/
def TableStore.Stores (ts : TableStore) (t : TableRef) (ref : ColumnRef) : Prop :=
  ∃ id, (ts.column? t id).map (·.ref) = some ref

/-- The reference is stored for a column with a name that is not blank. -/
def TableStore.Names (ts : TableStore) (t : TableRef) (ref : ColumnRef) : Prop :=
  ∃ id, Text.isBlank id = false ∧ (ts.column? t id).map (·.ref) = some ref

/-- The schema has what the tables say of `t`, and nothing if there is no such table. -/
structure Schema.Agrees (s : Schema) (ts : TableStore) (t : TableRef) : Prop where
  columns : s.columns.get? t = (ts.get? t).map (·.columns)
  summaryOf : s.summaryOf.get? t = (ts.get? t).bind (·.summaryOf)

/-- The schema has what the tables say of `t`. -/
def Schema.Covers (s : Schema) (ts : TableStore) (t : TableRef) : Prop :=
  ∃ table, ts.get? t = some table ∧ s.columns.get? t = some table.columns ∧
    s.summaryOf.get? t = table.summaryOf

theorem Schema.Covers.agrees {s : Schema} {ts : TableStore} {t : TableRef} (h : s.Covers ts t) :
    s.Agrees ts t := by
  obtain ⟨table, ht, columns, summaryOf⟩ := h
  exact ⟨by rw [columns, ht, Option.map_some], by rw [summaryOf, ht, Option.bind_some]⟩

theorem ColumnRef.eq_unset {ref : ColumnRef} (h : ref.isSet = false) : ref = .unset := by
  have zero : ref.raw = 0 := by simpa [ColumnRef.isSet] using h
  cases ref
  rw [ColumnRef.unset, ← zero]

namespace TableStore

variable (ts : TableStore) (t : TableRef)

theorem column?_rowId : ts.column? t rowIdColumn = some .rowId :=
  if_pos (beq_self_eq_true rowIdColumn)

theorem stores_unset : ts.Stores t .unset := by
  refine ⟨rowIdColumn, ?_⟩
  rw [column?_rowId]
  rfl

theorem names_unset : ts.Names t .unset := by
  refine ⟨rowIdColumn, by decide, ?_⟩
  rw [column?_rowId]
  rfl

variable {ts t}

theorem Names.stores {ref : ColumnRef} (h : ts.Names t ref) : ts.Stores t ref := by
  obtain ⟨id, -, found⟩ := h
  exact ⟨id, found⟩

end TableStore

namespace Schema

variable {s : Schema} {ts : TableStore} {t : TableRef} {ref : ColumnRef} (agrees : s.Agrees ts t)
  (numbered : ∀ table, ts.get? t = some table → table.Numbered)
include agrees numbered

/-- A column that was looked up by name is found by its reference again, under the same name. -/
theorem columnName_of_found {id : String} {c : ColumnInfo} (found : ts.column? t id = some c)
    (set : c.ref.isSet = true) :
    s.columnName (some t) c.ref = id ∧ s.column? t c.ref = some c := by
  rw [TableStore.column?] at found
  split at found
  · obtain rfl := Option.some.inj found
    cases set
  · obtain ⟨table, ht, hf⟩ := Option.bind_eq_some_iff.1 found
    have own : c.id = id := by simpa using List.find?_some hf
    have known : s.column? t c.ref = some c := by
      rw [column?, agrees.columns, ht, Option.map_some, Option.bind_some]
      have hc := List.mem_of_find?_eq_some hf
      cases hr : table.columns.find? fun info => info.ref == c.ref with
      | none => simpa using List.find?_eq_none.1 hr c hc
      | some info =>
        have same : info.ref = c.ref := by simpa using List.find?_some hr
        rw [List.inj_on_of_nodup_map (numbered table ht).distinct (List.mem_of_find?_eq_some hr) hc
          same]
    refine ⟨?_, known⟩
    rw [columnName, set, Option.bind_some, known]
    exact own

/-- The name of a reference leads back to it. -/
theorem columnName_spec (stored : ts.Stores t ref) : ∃ c,
    ts.column? t (s.columnName (some t) ref) = some c ∧ c.ref = ref ∧
      (ref.isSet = true → s.column? t ref = some c) := by
  cases set : ref.isSet with
  | false =>
    obtain rfl := ColumnRef.eq_unset set
    exact ⟨.rowId, ts.column?_rowId t, rfl, fun h => by cases h⟩
  | true =>
    obtain ⟨id, found⟩ := stored
    obtain ⟨c, hc, rfl⟩ := Option.map_eq_some_iff.1 found
    obtain ⟨name, known⟩ := columnName_of_found agrees numbered hc set
    exact ⟨c, by rw [name, hc], rfl, fun _ => known⟩

theorem columnName_told (named : ts.Names t ref) :
    Text.isBlank (s.columnName (some t) ref) = false := by
  cases set : ref.isSet with
  | false =>
    obtain rfl := ColumnRef.eq_unset set
    change Text.isBlank rowIdColumn = false
    decide
  | true =>
    obtain ⟨id, told, found⟩ := named
    obtain ⟨c, hc, rfl⟩ := Option.map_eq_some_iff.1 found
    rw [(columnName_of_found agrees numbered hc set).1]
    exact told

end Schema

/-! ## References of a link -/

namespace Link.Fits

variable {ts : TableStore} {rules : LinkRules} {ends : LinkEnds} {l : Link}
  (h : l.Fits ts rules ends)
include h

/-- What is stored for the source is the reference of the column that is named, if one is. -/
theorem sourceRef : (l.columnRefs ts ends).1 = .unset ∨ ∃ id, l.sourceCol = some id ∧
    (ts.column? ends.source id).map (·.ref) = some (l.columnRefs ts ends).1 := by
  rw [columnRefs]
  cases hc : l.sourceCol with
  | none => exact .inl rfl
  | some id =>
    obtain ⟨c, found, -⟩ := h.source id hc
    refine .inr ⟨id, rfl, ?_⟩
    rw [Option.bind_some, found]
    rfl

theorem targetRef : (l.columnRefs ts ends).2 = .unset ∨ ∃ id, l.targetCol = some id ∧
    (ts.column? ends.owner id).map (·.ref) = some (l.columnRefs ts ends).2 := by
  rw [columnRefs]
  cases hc : l.targetCol with
  | none => exact .inl rfl
  | some id =>
    obtain ⟨c, found⟩ := Option.isSome_iff_exists.1 (h.target id hc)
    refine .inr ⟨id, rfl, ?_⟩
    rw [Option.bind_some, found]
    rfl

theorem stores : ts.Stores ends.source (l.columnRefs ts ends).1 ∧
    ts.Stores ends.owner (l.columnRefs ts ends).2 := by
  constructor
  · rcases h.sourceRef with unset | ⟨id, -, found⟩
    · rw [unset]
      exact ts.stores_unset ends.source
    · exact ⟨id, found⟩
  · rcases h.targetRef with unset | ⟨id, -, found⟩
    · rw [unset]
      exact ts.stores_unset ends.owner
    · exact ⟨id, found⟩

theorem names (told : ∀ id ∈ l.sourceCol.toList ++ l.targetCol.toList, Text.isBlank id = false) :
    ts.Names ends.source (l.columnRefs ts ends).1 ∧
      ts.Names ends.owner (l.columnRefs ts ends).2 := by
  obtain ⟨toldSource, toldTarget⟩ := List.forall_mem_append.1 told
  constructor
  · rcases h.sourceRef with unset | ⟨id, one, found⟩
    · rw [unset]
      exact ts.names_unset ends.source
    · exact ⟨id, toldSource id (Option.mem_toList.2 one), found⟩
  · rcases h.targetRef with unset | ⟨id, one, found⟩
    · rw [unset]
      exact ts.names_unset ends.owner
    · exact ⟨id, toldTarget id (Option.mem_toList.2 one), found⟩

end Link.Fits

/-! ## Guesses -/

/-- The link is stored as the tuple, and nothing speaks against it between the tables `ends`. -/
structure Link.Restores (ts : TableStore) (rules : LinkRules) (ends : LinkEnds) (raw : LinkTuple)
    (l : Link) : Prop where
  source : l.source = .id raw.source
  fits : l.Fits ts rules ends
  columns : l.columnRefs ts ends = (raw.sourceCol, raw.targetCol)

/-- It could also have been written: no column is left blank. -/
structure Link.Recovers (ts : TableStore) (rules : LinkRules) (ends : LinkEnds) (raw : LinkTuple)
    (l : Link) : Prop extends l.Restores ts rules ends raw where
  named : ∀ id ∈ l.sourceCol.toList ++ l.targetCol.toList, Text.isBlank id = false

namespace Link.Restores

variable {ts : TableStore} {rules : LinkRules} {ends : LinkEnds} {raw : LinkTuple} {l : Link}

theorem of_cursor (source : l.source = .id raw.source) (none : l.sourceCol = none)
    (none' : l.targetCol = .none) (unset : raw.sourceCol.isSet = false)
    (unset' : raw.targetCol.isSet = false) (lineage : l.kind = .breakdownOf →
      ∃ table, ts.get? ends.owner = some table ∧ table.summaryOf = some ends.source) :
    l.Restores ts rules ends raw where
  source := source
  fits := {
    source := fun id hid => by rw [none] at hid; cases hid
    target := fun id hid => by rw [none'] at hid; cases hid
    lineage := fun _ => lineage }
  columns := by
    rw [columnRefs, none, none', ColumnRef.eq_unset unset, ColumnRef.eq_unset unset']
    rfl

theorem of_column {id : String} {c : ColumnInfo} (source : l.source = .id raw.source)
    (one : l.sourceCol = some id) (none : l.targetCol = none)
    (found : ts.column? ends.source id = some c) (ref : c.ref = raw.sourceCol)
    (unset : raw.targetCol.isSet = false) (listed : l.kind = .listedIn → c.isListValued = true)
    (filtered : l.kind = .filteredBy → c.isListValued = false) (plain : l.kind ≠ .breakdownOf) :
    l.Restores ts rules ends raw where
  source := source
  fits := {
    source := by
      intro id' hid
      obtain rfl := Option.some.inj (one.symm.trans hid)
      exact ⟨c, found, fun _ => ⟨listed, filtered⟩⟩
    target := fun id hid => by rw [none] at hid; cases hid
    lineage := fun _ kind => absurd kind plain }
  columns := by
    rw [columnRefs, one, none, Option.bind_some, found, ColumnRef.eq_unset unset, ← ref]
    rfl

theorem of_columns {id id' : String} {c c' : ColumnInfo}
    (found : ts.column? ends.source id = some c) (ref : c.ref = raw.sourceCol)
    (found' : ts.column? ends.owner id' = some c') (ref' : c'.ref = raw.targetCol) :
    (matchedBy (.id raw.source) id id').Restores ts rules ends raw where
  source := rfl
  fits := {
    source := by
      rintro _ ⟨⟩
      exact ⟨c, found, fun _ => ⟨fun kind => (nomatch kind), fun kind => (nomatch kind)⟩⟩
    target := by
      rintro _ ⟨⟩
      rw [found']
      rfl
    lineage := fun _ kind => nomatch kind }
  columns := by
    rw [columnRefs, sourceCol, targetCol, Option.bind_some, Option.bind_some, found, found', ← ref,
      ← ref']
    rfl

end Link.Restores

namespace Decompile

variable {s : Schema} {ts : TableStore} {ends : LinkEnds} (rules : LinkRules) {raw : LinkTuple}

/-- Whatever the columns and the lineage say, the guess is stored as the tuple it was made for. -/
theorem restores_candidates (numbered : ∀ t table, ts.get? t = some table → table.Numbered)
    (owner : s.Agrees ts ends.owner) (source : s.Agrees ts ends.source)
    (sourceCol : ts.Stores ends.source raw.sourceCol)
    (targetCol : ts.Stores ends.owner raw.targetCol) :
    (candidates s true ends.owner (some ends.source) raw).1.Restores ts rules ends raw := by
  obtain ⟨c, found, ref, known⟩ := Schema.columnName_spec source (numbered ends.source) sourceCol
  obtain ⟨c', found', ref', -⟩ := Schema.columnName_spec owner (numbered ends.owner) targetCol
  unfold candidates
  dsimp only
  cases set : raw.sourceCol.isSet <;> cases set' : raw.targetCol.isSet
  case false.true => exact .of_columns found ref found' ref'
  case true.true => exact .of_columns found ref found' ref'
  case false.false =>
    dsimp only
    split
    · next lineage =>
      have summary : (ts.get? ends.owner).bind (·.summaryOf) = some ends.source := by
        rw [← owner.summaryOf]
        simpa using lineage
      exact .of_cursor rfl rfl rfl set set' fun _ => Option.bind_eq_some_iff.1 summary
    · exact .of_cursor rfl rfl rfl set set' fun kind => nomatch kind
  case true.false =>
    dsimp only
    rw [Option.bind_some, known set, Option.map_some, Option.getD_some]
    split
    · next listed =>
      exact .of_column rfl rfl rfl found ref set' (fun _ => by simpa using listed)
        (fun kind => nomatch kind) (fun kind => nomatch kind)
    · next scalar =>
      exact .of_column rfl rfl rfl found ref set' (fun kind => nomatch kind)
        (fun _ => by simpa using scalar) (fun kind => nomatch kind)

/-- The columns of the guess, where it has any, are the names of the references. -/
theorem columns_candidates (s : Schema) (hints : Bool) (owner : TableRef)
    (source : Option TableRef) (raw : LinkTuple) :
    let l := (candidates s hints owner source raw).1
    (∀ id, l.sourceCol = some id → id = s.columnName source raw.sourceCol) ∧
      ∀ id, l.targetCol = some id → id = s.columnName (some owner) raw.targetCol := by
  unfold candidates
  cases raw.sourceCol.isSet <;> cases raw.targetCol.isSet
  case false.false =>
    dsimp only
    split <;> exact ⟨fun _ none => (nomatch none), fun _ none => nomatch none⟩
  case true.false =>
    dsimp only
    split <;> exact ⟨fun _ h => (Option.some.inj h).symm, fun _ none => nomatch none⟩
  case false.true =>
    exact ⟨fun _ h => (Option.some.inj h).symm, fun _ h => (Option.some.inj h).symm⟩
  case true.true =>
    exact ⟨fun _ h => (Option.some.inj h).symm, fun _ h => (Option.some.inj h).symm⟩

theorem recovers_candidates (numbered : ∀ t table, ts.get? t = some table → table.Numbered)
    (owner : s.Covers ts ends.owner) (source : s.Covers ts ends.source)
    (sourceCol : ts.Names ends.source raw.sourceCol)
    (targetCol : ts.Names ends.owner raw.targetCol) :
    (candidates s true ends.owner (some ends.source) raw).1.Recovers ts rules ends raw where
  toRestores := restores_candidates rules numbered owner.agrees source.agrees sourceCol.stores
    targetCol.stores
  named := by
    have columns := columns_candidates s true ends.owner (some ends.source) raw
    refine List.forall_mem_append.2 ⟨fun id hid => ?_, fun id hid => ?_⟩
    · rw [columns.1 id (Option.mem_toList.1 hid)]
      exact Schema.columnName_told source.agrees (numbered ends.source) sourceCol
    · rw [columns.2 id (Option.mem_toList.1 hid)]
      exact Schema.columnName_told owner.agrees (numbered ends.owner) targetCol

end Decompile
end PaneLayout
