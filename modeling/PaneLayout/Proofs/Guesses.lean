import PaneLayout.Proofs.Recovery
import PaneLayout.Proofs.Result
import PaneLayout.Proofs.SortedMap

set_option autoImplicit false

/-!
# Guesses at stored links

What the link that is recovered from a tuple has to do with the link that was stored as it. The
guess is always stored as the same tuple. The kind of the link that was written is among those that
are offered, but for links by the row id, which a tuple does not tell from links by no column.
-/

namespace PaneLayout

variable {α σ : Type}

/-! ## Kinds that are offered -/

/-- The kinds that are stored as the tuple, as far as it tells. -/
def LinkTuple.kinds (t : LinkTuple) : List LinkKind :=
  match t.sourceCol.isSet, t.targetCol.isSet with
  | false, false => [.childOf, .syncedWith, .breakdownOf]
  | true, false => [.filteredBy, .listedIn]
  | _, true => [.matchedBy]

/-- The kinds that are offered for a recovered link. -/
def RecoveredLink.kinds (r : RecoveredLink) : List LinkKind := r.guess.kind :: r.alternatives

/-- Whatever the schema says, the same kinds are offered, each of them once. -/
theorem Decompile.kinds_recover (ws : WidgetMap) (s : Schema) (hints : Bool) (w : WidgetInfo)
    (t : LinkTuple) : (recover ws s hints w t).kinds.Perm t.kinds := by
  rw [RecoveredLink.kinds, LinkTuple.kinds, recover, candidates]
  cases t.sourceCol.isSet <;> cases t.targetCol.isSet
  case false.false =>
    dsimp only
    split
    · change [LinkKind.breakdownOf, .syncedWith, .childOf].Perm _
      decide
    · change [LinkKind.syncedWith, .childOf, .breakdownOf].Perm _
      decide
  case true.false =>
    dsimp only
    split
    · change [LinkKind.listedIn, .filteredBy].Perm _
      decide
    · exact .refl _
  case false.true => exact .refl _
  case true.true => exact .refl _

/-- The column that the link names last. -/
def Link.lastCol (l : Link) : Option String := l.targetCol <|> l.sourceCol

/-- The reference that the tuple has for that column. -/
def Link.lastRef (l : Link) (t : LinkTuple) : Option ColumnRef :=
  match l.targetCol, l.sourceCol with
  | some _, _ => some t.targetCol
  | none, some _ => some t.sourceCol
  | none, none => none

/-- The tuple has no reference where the link names no column. -/
structure Link.StoredAs (l : Link) (t : LinkTuple) : Prop where
  source : l.sourceCol = none → t.sourceCol = .unset
  target : l.targetCol = none → t.targetCol = .unset

/-- A kind is told by the column that is named last, if that has a reference. -/
theorem Link.StoredAs.kind_mem_iff {l : Link} {t : LinkTuple} (h : l.StoredAs t) :
    l.kind ∈ t.kinds ↔ ∀ ref ∈ l.lastRef t, ref.isSet = true := by
  obtain ⟨source, sourceCol, targetCol⟩ := t
  obtain ⟨noSource, noTarget⟩ := h
  have unset : ColumnRef.unset.isSet = false := rfl
  cases l with
  | childOf | syncedWith | breakdownOf =>
    obtain rfl : sourceCol = .unset := noSource rfl
    obtain rfl : targetCol = .unset := noTarget rfl
    simp [LinkTuple.kinds, lastRef, kind, Link.sourceCol, Link.targetCol, unset]
  | filteredBy | listedIn =>
    obtain rfl : targetCol = .unset := noTarget rfl
    cases set : sourceCol.isSet <;>
      simp [LinkTuple.kinds, lastRef, kind, Link.sourceCol, Link.targetCol, unset, set]
  | matchedBy =>
    cases set : sourceCol.isSet <;> cases set' : targetCol.isSet <;>
      simp [LinkTuple.kinds, lastRef, kind, Link.targetCol, set, set']

/-- Of the columns that can be named in a numbered table, only the row id has no reference. -/
theorem TableStore.isSet_iff {ts : TableStore} {t : TableRef} {id : String} {c : ColumnInfo}
    (numbered : ∀ table, ts.get? t = some table → table.Numbered)
    (found : ts.column? t id = some c) : c.ref.isSet = true ↔ id ≠ rowIdColumn := by
  rw [column?] at found
  split at found
  · next rowId =>
    obtain rfl := Option.some.inj found
    constructor
    · intro set
      cases set
    · intro other
      exact absurd (beq_iff_eq.1 rowId) other
  · next other =>
    obtain ⟨table, ht, hc⟩ := Option.bind_eq_some_iff.1 found
    have set := (numbered table ht).set c (List.mem_of_find?_eq_some hc)
    exact ⟨fun _ same => other (beq_iff_eq.2 same), fun _ => set⟩

/-- Between numbered tables, that column has a reference unless it is the row id. -/
theorem Link.Fits.lastRef_isSet_iff {ts : TableStore} {rules : LinkRules} {ends : LinkEnds}
    {l : Link} {source : SectionId} (fits : l.Fits ts rules ends)
    (numbered : ∀ u table, ts.get? u = some table → table.Numbered) :
    (∀ ref ∈ l.lastRef ⟨source, (l.columnRefs ts ends).1, (l.columnRefs ts ends).2⟩,
      ref.isSet = true) ↔ l.lastCol ≠ some rowIdColumn := by
  rw [lastRef, lastCol, columnRefs]
  cases targeted : l.targetCol with
  | some id =>
    obtain ⟨c, found⟩ := Option.isSome_iff_exists.1 (fits.target id targeted)
    simp [found, TableStore.isSet_iff (numbered ends.owner) found]
  | none =>
    cases sourced : l.sourceCol with
    | some id =>
      obtain ⟨c, found, -⟩ := fits.source id sourced
      simp [found, TableStore.isSet_iff (numbered ends.source) found]
    | none => simp

theorem Link.storedAs_columnRefs (ts : TableStore) (ends : LinkEnds) (l : Link)
    (source : SectionId) :
    l.StoredAs ⟨source, (l.columnRefs ts ends).1, (l.columnRefs ts ends).2⟩ where
  source := fun none => by
    rw [columnRefs, none]
    rfl
  target := fun none => by
    rw [columnRefs, none]
    rfl

/-- So it is by the row id only that a kind is lost. -/
theorem Link.Fits.kind_mem_iff {ts : TableStore} {rules : LinkRules} {ends : LinkEnds} {l : Link}
    {source : SectionId} (fits : l.Fits ts rules ends)
    (numbered : ∀ u table, ts.get? u = some table → table.Numbered) :
    l.kind ∈ (LinkTuple.mk source (l.columnRefs ts ends).1 (l.columnRefs ts ends).2).kinds ↔
      l.lastCol ≠ some rowIdColumn :=
  (l.storedAs_columnRefs ts ends source).kind_mem_iff.trans (fits.lastRef_isSet_iff numbered)

namespace LinkCheck

variable {client : Client α σ} (rules : LinkRules) (l : Link) (ends : LinkEnds) (label : String)
  (st : Schooled σ)

theorem sourceColumn_unset : (sourceColumn client rules l ends label).Yields st
    (fun ref _ => l.sourceCol = none → ref = .unset) fun _ _ => True := by
  unfold sourceColumn
  cases l.sourceCol with
  | none => exact fun _ => rfl
  | some col => exact (Run.yields_trivial _ st).mono (fun _ _ _ none => nomatch none) fun _ _ => id

theorem targetColumn_unset : (targetColumn client rules l ends label).Yields st
    (fun ref _ => l.targetCol = none → ref = .unset) fun _ _ => True := by
  unfold targetColumn
  cases l.targetCol with
  | none => exact fun _ => rfl
  | some col => exact (Run.yields_trivial _ st).mono (fun _ _ _ none => nomatch none) fun _ _ => id

/-- Whatever the document answers. -/
theorem resolve_storedAs (source : SectionId) :
    (resolve client rules l source ends label).Yields st
      (fun t _ => t.source = source ∧ l.StoredAs t) fun _ _ => True := by
  simp only [resolve, check, Run.yields_bind]
  refine (sourceColumn_unset rules l ends _ st).mono ?_ fun _ _ => id
  intro sourceCol st₁ noSource
  refine (targetColumn_unset rules l ends _ st₁).mono ?_ fun _ _ => id
  intro targetCol st₂ noTarget
  exact (Run.yields_trivial _ st₂).mono (fun _ _ _ => ⟨rfl, noSource, noTarget⟩) fun _ _ => id

end LinkCheck

/-- What a document says of its tables and widgets. -/
def Document.schema (d : Document α) : Schema where
  tables := d.tableMap
  columns := d.tables.mapValues (·.columns)
  summaryOf := d.tables.filterMapValues (·.summaryOf)
  sectionTables := d.widgets.mapValues (·.table)

theorem Document.schema_agrees (d : Document α) (t : TableRef) : d.schema.Agrees d.tables t where
  columns := d.tables.get?_mapValues _ t
  summaryOf := d.tables.get?_filterMapValues _ t

open LinkCheck in
/-- The kind of a stored link is offered when it is read back exactly if the column that the link
names last has a reference. By the row id, it is taken for a link that names no such column. -/
theorem offers_kind_iff {client : Client α σ} {st st' : Schooled σ} {rules : LinkRules} {l : Link}
    {source : SectionId} {ends : LinkEnds} {label : String} {t : LinkTuple}
    (run : (resolve client rules l source ends label).start st = (.ok t, st'))
    {ws : WidgetMap} {id : SectionId} {w : WidgetInfo} (there : ws.get? id = some w)
    (stored : w.link = some t) (s : Schema) (o : DecompileOptions) :
    ∃ r, (Decompile.readLeaf ws s o id).links = [r] ∧ r.raw = t ∧
      (l.kind ∈ r.kinds ↔ ∀ ref ∈ l.lastRef t, ref.isSet = true) := by
  refine ⟨Decompile.recover ws s o.schemaHints w t, ?_, rfl, ?_⟩
  · rw [Decompile.readLeaf, there]
    dsimp only
    rw [stored]
  · have storedAs := ((resolve_storedAs rules l ends label st source).ok run).2
    rw [(Decompile.kinds_recover ws s o.schemaHints w t).mem_iff]
    exact storedAs.kind_mem_iff

open LinkCheck in
theorem offers_kind_iff_of_total : ∃ t st',
    (resolve Document.client (.ofConfig Document.shop.tableMap .standard)
      (.filteredBy (.id ⟨7⟩) "Total") ⟨7⟩ ⟨⟨2⟩, ⟨1⟩⟩ "Customers").start (.fresh Document.shop) =
        (.ok t, st') ∧
    ∃ ws w, SortedMap.get? ws ⟨8⟩ = some w ∧ w.link = some t ∧
      ∃ r, (Decompile.readLeaf ws Document.shop.schema ⟨true, false, true⟩ ⟨8⟩).links = [r] ∧
        r.raw = t ∧ (.filteredBy ∈ r.kinds ↔
          ∀ ref ∈ (Link.filteredBy (.id ⟨7⟩) "Total").lastRef t, ref.isSet = true) := by
  obtain ⟨t, st', run, found⟩ := exists_ok_of_test
    (fun t _ => decide (t = ⟨⟨7⟩, ⟨1⟩, .unset⟩))
    (x := (resolve Document.client (.ofConfig Document.shop.tableMap .standard)
      (.filteredBy (.id ⟨7⟩) "Total") ⟨7⟩ ⟨⟨2⟩, ⟨1⟩⟩ "Customers").start (.fresh Document.shop))
    (by decide +kernel)
  obtain rfl := of_decide_eq_true found
  have there : (Document.shop.widgets.insert ⟨8⟩
      ((WidgetInfo.create ⟨8⟩ ⟨2⟩ .grid).withLink (some ⟨⟨7⟩, ⟨1⟩, .unset⟩))).get? ⟨8⟩ = some _ :=
    SortedMap.get?_insert_self ..
  exact ⟨_, st', run, _, _, there, rfl, offers_kind_iff run there rfl _ _⟩

open LinkCheck in
/-- By the row id: what is filtered is read as following the cursor, whatever the options. -/
theorem filter_not_offered : ∃ st' w,
    (resolve Document.client (.ofConfig Document.shop.tableMap .standard)
      (.filteredBy (.id ⟨7⟩) rowIdColumn) ⟨7⟩ ⟨⟨2⟩, ⟨1⟩⟩ "Customers").start (.fresh Document.shop) =
        (.ok (.cursor ⟨7⟩), st') ∧
    w.table = ⟨2⟩ ∧ w.link = some (.cursor ⟨7⟩) ∧
    (∀ u, Document.shop.schema.Agrees Document.shop.tables u) ∧
    ∀ o, ∃ r, (Decompile.readLeaf (Document.shop.widgets.insert ⟨8⟩ w) Document.shop.schema o
      ⟨8⟩).links = [r] ∧ .filteredBy ∉ r.kinds := by
  obtain ⟨t, st', run, found⟩ := exists_ok_of_test (fun t _ => decide (t = .cursor ⟨7⟩))
    (x := (resolve Document.client (.ofConfig Document.shop.tableMap .standard)
      (.filteredBy (.id ⟨7⟩) rowIdColumn) ⟨7⟩ ⟨⟨2⟩, ⟨1⟩⟩ "Customers").start (.fresh Document.shop))
    (by decide +kernel)
  obtain rfl := of_decide_eq_true found
  refine ⟨st', (WidgetInfo.create ⟨8⟩ ⟨2⟩ .grid).withLink (some (.cursor ⟨7⟩)), run, rfl, rfl,
    Document.shop.schema_agrees, fun o => ⟨_, rfl, fun offered => ?_⟩⟩
  exact absurd ((Decompile.kinds_recover ..).mem_iff.1 offered) (by decide)

/-! ## Stored again -/

open LinkCheck in
/-- The guess passes every check and is stored as the tuple that it was made for, whichever link
that tuple comes from and whatever that one was checked against. -/
theorem resolve_guess {ts : TableStore} {st st' : Schooled (Document α)} {rules : LinkRules}
    {l : Link} {source : SectionId} {ends : LinkEnds} {label : String} {t : LinkTuple}
    (numbered : ∀ u table, ts.get? u = some table → table.Numbered) (knows : Knows ts st)
    (run : (resolve Document.client rules l source ends label).start st = (.ok t, st'))
    {ws : WidgetMap} {s : Schema} {w : WidgetInfo} (owner : w.table = ends.owner)
    (known : Decompile.sourceTable ws s t.source = some ends.source)
    (ownerAgrees : s.Agrees ts ends.owner) (sourceAgrees : s.Agrees ts ends.source)
    {st₁ : Schooled (Document α)} (knows₁ : Knows ts st₁) (tables : TableMap) (label' : String) :
    let guess := (Decompile.recover ws s true w t).guess
    guess.source = .id t.source ∧
    ∃ st₂, (resolve Document.client ⟨tables, true, true⟩ guess t.source ends label').start st₁ =
      (.ok t, st₂) := by
  intro guess
  obtain ⟨-, fits, stored⟩ := (resolve_yields rules l source ends label knows).ok run
  have restores : guess.Restores ts ⟨tables, true, true⟩ ends t := by
    simp only [guess, Decompile.recover]
    rw [owner, known]
    refine Decompile.restores_candidates _ numbered ownerAgrees sourceAgrees ?_ ?_
    · rw [stored]
      exact fits.stores.1
    · rw [stored]
      exact fits.stores.2
  refine ⟨restores.source, ?_⟩
  have again := resolve_yields ⟨tables, true, true⟩ guess t.source ends label' knows₁
  rcases run' : (resolve Document.client ⟨tables, true, true⟩ guess t.source ends label').start st₁
    with ⟨err | t', st₂⟩
  · exact absurd restores.fits (again.error run').2
  · obtain ⟨-, -, rfl⟩ := again.ok run'
    rw [restores.columns]
    exact ⟨st₂, rfl⟩

open LinkCheck in
/-- Filtered, unchecked, by a column of lists: it is stored again as a link by membership. -/
theorem resolve_guess_of_unchecked :
    let d := (Document.empty (α := Rat)).addTable "Orders" [("Items", "ChoiceList")] none
    let t : LinkTuple := ⟨⟨7⟩, ⟨1⟩, .unset⟩
    let guess := (Decompile.recover (.ofList [(⟨7⟩, .create ⟨7⟩ ⟨1⟩ .grid)]) d.schema true
      (.create ⟨8⟩ ⟨1⟩ .card) t).guess
    (∃ st, (resolve Document.client ⟨∅, false, false⟩ (.filteredBy (.id ⟨7⟩) "Items") ⟨7⟩
      ⟨⟨1⟩, ⟨1⟩⟩ "Orders").start (.fresh d) = (.ok t, st)) ∧
    guess.kind = .listedIn ∧ guess.source = .id t.source ∧
    ∃ st, (resolve Document.client ⟨∅, true, true⟩ guess t.source ⟨⟨1⟩, ⟨1⟩⟩ "Orders").start
      (.fresh d) = (.ok t, st) := by
  intro d t guess
  obtain ⟨t', st, run, found⟩ := exists_ok_of_test (fun t' _ => decide (t' = t))
    (x := (resolve Document.client ⟨∅, false, false⟩ (.filteredBy (.id ⟨7⟩) "Items") ⟨7⟩
      ⟨⟨1⟩, ⟨1⟩⟩ "Orders").start (.fresh d)) (by decide +kernel)
  obtain rfl := of_decide_eq_true found
  have numbered : ∀ u table, d.tables.get? u = some table → table.Numbered := by
    intro u table ht
    have entry := SortedMap.get?_eq_some_iff.1 ht
    obtain ⟨-, rfl⟩ := Prod.mk.inj (List.mem_singleton.1 entry)
    exact ⟨by decide, by decide⟩
  exact ⟨⟨st, run⟩, by decide, resolve_guess numbered (knows_fresh d) run rfl rfl
    (d.schema_agrees _) (d.schema_agrees _) (knows_fresh d) ∅ "Orders"⟩

end PaneLayout
