import PaneLayout.Proofs.Planning
import PaneLayout.Proofs.Reachable
import PaneLayout.Proofs.SortedMap
import PaneLayout.Scalar.Rational

set_option autoImplicit false

/-!
# What the name of a table means

A document finds the first table of a name, and its map of all names keeps the last. The two are one
table exactly if no other table of the document has that name, and no fixture is refused for names
that it lists twice.
-/

namespace PaneLayout

/-- Numbers start over after `2 ^ 32` tables. -/
theorem TableRef.ofNat_eq_iff {a b : Nat} (le : a ≤ b) (near : b ≤ a + UInt32.size) :
    TableRef.ofNat a = .ofNat b ↔ a = b ∨ b = a + UInt32.size := by
  have raw : TableRef.ofNat a = .ofNat b ↔ a % 2 ^ 32 = b % 2 ^ 32 :=
    ⟨fun same => congrArg TableRef.toNat same, fun same => TableRef.toNat_inj same⟩
  rw [raw]
  rw [UInt32.size] at near ⊢
  omega

theorem getElem?_concat_iff {β : Type} {xs : List β} {x y : β} {i : Nat} :
    (xs ++ [x])[i]? = some y ↔ xs[i]? = some y ∨ (i = xs.length ∧ y = x) := by
  rcases Nat.lt_trichotomy i xs.length with inside | rfl | outside
  · simp [List.getElem?_append_left inside, Nat.ne_of_lt inside]
  · simp [eq_comm]
  · have past : ∀ zs : List β, zs.length ≤ i → zs[i]? = none := fun _ => List.getElem?_eq_none
    rw [past _ (by simp; omega), past _ (Nat.le_of_lt outside)]
    simp [Nat.ne_of_gt outside]

namespace Document

variable {α : Type} {d e : Document α} {name : String} {r s : TableRef}

/-- The table `r` has that name. -/
def Bears (d : Document α) (name : String) (r : TableRef) : Prop :=
  ∃ t, d.tables.get? r = some t ∧ t.name = name

/-! ## The first and the last of a name -/

theorem bears_iff_mem : d.Bears name r ↔ ∃ t, (r, t) ∈ d.tables.toList ∧ t.name = name := by
  simp only [Bears, SortedMap.get?_eq_some_iff]

theorem tableRef?_isSome_iff : (d.tableRef? name).isSome ↔ ∃ r, d.Bears name r := by
  rw [tableRef?, Option.isSome_map, List.find?_isSome]
  simp only [bears_iff_mem, Prod.exists, beq_iff_eq]

theorem tableRef?_eq_some_iff : d.tableRef? name = some r ↔
    d.Bears name r ∧ ∀ s, d.Bears name s → r.toNat ≤ s.toNat := by
  have first : ∀ r, d.tableRef? name = some r →
      d.Bears name r ∧ ∀ s, d.Bears name s → r.toNat ≤ s.toNat := by
    intro r found
    obtain ⟨⟨r', t⟩, first, rfl⟩ := Option.map_eq_some_iff.1 found
    have named := List.find?_some first
    rw [beq_iff_eq] at named
    refine ⟨bears_iff_mem.2 ⟨t, List.mem_of_find?_eq_some first, named⟩, fun s bears => ?_⟩
    obtain ⟨u, mem, named'⟩ := bears_iff_mem.1 bears
    rcases SortedMap.find?_least first mem (beq_iff_eq.2 named') with same | before
    · exact Nat.le_of_eq (congrArg TableRef.toNat (Prod.mk.inj same).1.symm)
    · exact Nat.le_of_lt (of_decide_eq_true before)
  refine ⟨first r, fun ⟨bears, least⟩ => ?_⟩
  obtain ⟨r', found⟩ := Option.isSome_iff_exists.1 (tableRef?_isSome_iff.2 ⟨r, bears⟩)
  obtain ⟨bears', least'⟩ := first r' found
  rw [found, TableRef.toNat_inj (Nat.le_antisymm (least' r bears) (least r' bears'))]

theorem contains_tableMap : d.tableMap.contains name = true ↔ ∃ r, d.Bears name r := by
  change (SortedMap.insertAll ∅ _).contains name = true ↔ _
  rw [SortedMap.contains_insertAll, List.map_map, List.mem_map]
  constructor
  · rintro (never | ⟨⟨r, t⟩, mem, named⟩)
    · cases never
    · exact ⟨r, bears_iff_mem.2 ⟨t, mem, named⟩⟩
  · rintro ⟨r, bears⟩
    obtain ⟨t, mem, named⟩ := bears_iff_mem.1 bears
    exact .inr ⟨(r, t), mem, named⟩

theorem tableMap_greatest (found : d.tableMap.get? name = some r) :
    d.Bears name r ∧ ∀ s, d.Bears name s → s.toNat ≤ r.toNat := by
  obtain ⟨none, -⟩ | ⟨front, back, split, later⟩ := SortedMap.get?_insertAll_cases found
  · cases none
  obtain ⟨front', rest, whole, -, tail⟩ := List.map_eq_append_iff.1 split
  obtain ⟨⟨r', t⟩, back', rfl, here, rfl⟩ := List.map_eq_cons_iff.1 tail
  obtain ⟨named, rfl⟩ := Prod.mk.inj here
  refine ⟨bears_iff_mem.2 ⟨t, by rw [whole]; simp, named⟩, fun s bears => ?_⟩
  obtain ⟨u, mem, named'⟩ := bears_iff_mem.1 bears
  have sorted := d.tables.sorted
  change d.tables.toList.Pairwise _ at sorted
  rw [whole] at sorted mem
  rcases List.mem_append.1 mem with early | late
  · have before := (List.pairwise_append.1 sorted).2.2 _ early _ List.mem_cons_self
    exact Nat.le_of_lt (of_decide_eq_true before)
  · rcases List.mem_cons.1 late with same | late
    · exact Nat.le_of_eq (congrArg TableRef.toNat (Prod.mk.inj same).1)
    · refine absurd ?_ later
      rw [List.map_map]
      exact List.mem_map.2 ⟨(s, u), late, named'⟩

/-- The map of all names agrees with the search exactly where no two tables share the name. -/
theorem tableMap_eq_iff : d.tableMap.get? name = d.tableRef? name ↔
    ∀ r s, d.Bears name r → d.Bears name s → r = s := by
  constructor
  · intro same r s bearsr bearss
    obtain ⟨first, found⟩ := Option.isSome_iff_exists.1 (tableRef?_isSome_iff.2 ⟨r, bearsr⟩)
    have least := (tableRef?_eq_some_iff.1 found).2
    have greatest := (tableMap_greatest (same.trans found)).2
    refine TableRef.toNat_inj ?_
    have := least r bearsr
    have := least s bearss
    have := greatest r bearsr
    have := greatest s bearss
    omega
  · intro one
    cases found : d.tableRef? name with
    | none =>
      cases mapped : d.tableMap.get? name with
      | none => rfl
      | some r =>
        have some := tableRef?_isSome_iff.2 ⟨r, (tableMap_greatest mapped).1⟩
        rw [found] at some
        cases some
    | some r =>
      have bears := (tableRef?_eq_some_iff.1 found).1
      obtain ⟨s, mapped⟩ := Option.isSome_iff_exists.1 (contains_tableMap.2 ⟨r, bears⟩)
      rw [mapped, one s r (tableMap_greatest mapped).1 bears]

/-! ## One more table -/

section
variable {columns : List (String × String)} {summaryOf : Option TableRef} {added : String}

theorem bears_addTable : (d.addTable added columns summaryOf).Bears name r ↔
    (r = ⟨d.lastTable + 1⟩ ∧ added = name) ∨ (r ≠ ⟨d.lastTable + 1⟩ ∧ d.Bears name r) := by
  unfold Bears
  change (∃ t, (d.tables.insert _ _).get? r = some t ∧ t.name = name) ↔ _
  rw [SortedMap.get?_insert]
  split
  · next new => simp [new]
  · next old => simp [old]

theorem summarySource_addTable (s : TableRef) :
    (d.addTable added columns summaryOf).tableCall (·.summaryOf) s =
      if s = ⟨d.lastTable + 1⟩ then .ok summaryOf else d.tableCall (·.summaryOf) s := by
  have stored : (d.addTable added columns summaryOf).tables.get? s =
      if s = ⟨d.lastTable + 1⟩ then some ⟨added, (numberColumns d.lastColumn columns).1, summaryOf⟩
      else d.tables.get? s := SortedMap.get?_insert ..
  rw [tableCall, stored, tableCall]
  by_cases new : s = ⟨d.lastTable + 1⟩
  · rw [if_pos new, if_pos new]
  · rw [if_neg new, if_neg new]

/-- A table numbered beyond all others does not come first. -/
theorem tableRef?_addTable (beyond : ∀ s, d.Bears name s → s.toNat < (d.lastTable + 1).toNat)
    (found : d.tableRef? name = some r) :
    (d.addTable added columns summaryOf).tableRef? name = some r := by
  obtain ⟨bears, least⟩ := tableRef?_eq_some_iff.1 found
  refine tableRef?_eq_some_iff.2 ⟨bears_addTable.2 (.inr ⟨?_, bears⟩), fun s hs => ?_⟩
  · rintro rfl
    exact absurd (beyond _ bears) (Nat.lt_irrefl _)
  · rcases bears_addTable.1 hs with ⟨rfl, -⟩ | ⟨-, hs⟩
    · exact Nat.le_of_lt (beyond r bears)
    · exact least s hs

end

/-! ## Tables that a fixture lists -/

/-- The tables are those of `ts`, numbered in that order. Numbers start over after `2 ^ 32` of
them, and a table whose number is given out again is lost. -/
structure Lists (d : Document α) (ts : List TableFixture) : Prop where
  count : d.lastTable = UInt32.ofNat ts.length
  bears : ∀ name r, d.Bears name r ↔
    ∃ i t, ts[i]? = some t ∧ ts.length ≤ i + UInt32.size ∧ t.name = name ∧ r = .ofNat (i + 1)
  sources : ts.length < UInt32.size → ∀ i t, ts[i]? = some t → ∀ source, t.summaryOf = some source →
    ∃ r, d.tableRef? source = some r ∧ d.tableCall (·.summaryOf) (.ofNat (i + 1)) = .ok (some r)

namespace Lists

variable {ts : List TableFixture} {t : TableFixture}

theorem empty : (Document.empty : Document α).Lists [] where
  count := rfl
  bears name r := by
    constructor
    · rintro ⟨t, found, -⟩
      cases found
    · rintro ⟨i, t, found, -⟩
      cases found
  sources _ i t found := by cases found

theorem next_eq (h : d.Lists ts) : (⟨d.lastTable + 1⟩ : TableRef) = .ofNat (ts.length + 1) := by
  rw [h.count]
  exact congrArg TableRef.mk (UInt32.ofNat_add ts.length 1).symm

theorem bears_concat (h : d.Lists ts) (columns : List (String × String))
    (summaryOf : Option TableRef) : (d.addTable t.name columns summaryOf).Bears name r ↔
      ∃ i u, (ts ++ [t])[i]? = some u ∧ (ts ++ [t]).length ≤ i + UInt32.size ∧ u.name = name ∧
        r = .ofNat (i + 1) := by
  rw [bears_addTable, h.next_eq, h.bears, List.length_append, List.length_singleton]
  constructor
  · rintro (⟨rfl, named⟩ | ⟨old, i, u, found, kept, named, rfl⟩)
    · exact ⟨ts.length, t, List.getElem?_concat_length, by rw [UInt32.size]; omega, named, rfl⟩
    · refine ⟨i, u, getElem?_concat_iff.2 (.inl found), ?_, named, rfl⟩
      -- the one number that is given out again is that of the new table
      have inside := (List.getElem?_eq_some_iff.1 found).1
      have differ := mt (TableRef.ofNat_eq_iff (by omega) (by omega)).2 old
      omega
  · rintro ⟨i, u, found, kept, named, rfl⟩
    rcases getElem?_concat_iff.1 found with found | ⟨rfl, rfl⟩
    · have inside := (List.getElem?_eq_some_iff.1 found).1
      refine .inr ⟨fun same => ?_, i, u, found, by omega, named, rfl⟩
      rcases (TableRef.ofNat_eq_iff (by omega) (by omega)).1 same with same | same <;> omega
    · exact .inl ⟨rfl, named⟩

/-- Short of the end of the numbers, a new table is numbered beyond all that are there. -/
theorem beyond (h : d.Lists ts) (room : ts.length + 1 < UInt32.size) (s : TableRef)
    (bears : d.Bears name s) : s.toNat < (d.lastTable + 1).toNat := by
  obtain ⟨i, u, found, -, -, rfl⟩ := (h.bears name s).1 bears
  have inside := (List.getElem?_eq_some_iff.1 found).1
  have new : (d.lastTable + 1).toNat = ts.length + 1 := by
    rw [h.count, toNat_succ] <;> rw [UInt32.toNat_ofNat_of_lt' (by omega)]
    exact room
  have old : (TableRef.ofNat (i + 1)).toNat = i + 1 := UInt32.toNat_ofNat_of_lt' (by omega)
  omega

/-- One more table: its source is the first of that name, and stays the first. -/
theorem addTableFixture (h : d.Lists ts) (run : d.addTableFixture t = .ok e) :
    e.Lists (ts ++ [t]) := by
  obtain ⟨known, rfl⟩ := addTableFixture_ok run
  refine ⟨?_, fun name r => h.bears_concat _ _, ?_⟩
  · rw [List.length_append]
    exact congrArg TableRef.raw h.next_eq
  · intro room i u listed source named
    rw [List.length_append, List.length_singleton] at room
    have stays {r : TableRef} (found : d.tableRef? source = some r) :
        (d.addTable t.name (t.columns.map fun c => (c.id, c.type))
          (t.summaryOf.bind d.tableRef?)).tableRef? source = some r :=
      tableRef?_addTable (h.beyond room) found
    rcases getElem?_concat_iff.1 listed with listed | ⟨rfl, rfl⟩
    · have inside := (List.getElem?_eq_some_iff.1 listed).1
      obtain ⟨r, found, stored⟩ := h.sources (by omega) i u listed source named
      have old : TableRef.ofNat (i + 1) ≠ ⟨d.lastTable + 1⟩ := by
        rw [h.next_eq]
        intro same
        rcases (TableRef.ofNat_eq_iff (by omega) (by omega)).1 same with same | same <;> omega
      refine ⟨r, stays found, ?_⟩
      rw [summarySource_addTable, if_neg old, stored]
    · obtain ⟨r, found⟩ := Option.isSome_iff_exists.1 (known source named)
      refine ⟨r, stays found, ?_⟩
      rw [summarySource_addTable, if_pos h.next_eq.symm, named, Option.bind_some, found]

theorem addTableFixtures {us : List TableFixture} (h : d.Lists ts)
    (run : us.foldlM Document.addTableFixture d = .ok e) : e.Lists (ts ++ us) := by
  induction us generalizing d ts with
  | nil =>
    obtain rfl := Except.ok.inj run
    rwa [List.append_nil]
  | cons t us ih =>
    rw [List.foldlM_cons, bind_ok_iff] at run
    obtain ⟨d₁, here, rest⟩ := run
    rw [List.append_cons]
    exact ih (h.addTableFixture here) rest

theorem of_fixture {f : DocumentFixture α} (built : ofFixture f = .ok d) : d.Lists f.tables := by
  obtain ⟨c, tables, pages⟩ := ofFixture_ok built
  -- pages leave the tables alone
  refine foldlM_keeps (P := (Lists · f.tables)) ?_ (empty.addTableFixtures tables) pages
  intro d p _ e h run
  exact addPageFixture_keeps (P := (Lists · f.tables)) ⟨h.count, h.bears, h.sources⟩
    (fun _ _ _ h _ => ⟨h.count, h.bears, h.sources⟩) run

end Lists
end Document

/-! ## Names that are listed once -/

/-- The tables that keep their number, which are all unless there are more than `2 ^ 32`. -/
def DocumentFixture.kept {α : Type} (f : DocumentFixture α) : List TableFixture :=
  f.tables.drop (f.tables.length - UInt32.size)

/-- No two of the tables have that name. -/
def DocumentFixture.NamesOnce {α : Type} (f : DocumentFixture α) (name : String) : Prop :=
  f.kept.Pairwise fun t u => t.name = name → u.name ≠ name

instance {α : Type} (f : DocumentFixture α) (name : String) : Decidable (f.NamesOnce name) :=
  inferInstanceAs (Decidable (f.kept.Pairwise _))

namespace Document

variable {α : Type} {f : DocumentFixture α} {d : Document α} {name : String}

theorem namesOnce_iff : f.NamesOnce name ↔ ∀ (i j : Nat) t u, f.tables[i]? = some t →
    f.tables[j]? = some u → f.tables.length ≤ i + UInt32.size → i < j → t.name = name →
    u.name ≠ name := by
  unfold DocumentFixture.NamesOnce DocumentFixture.kept
  obtain ⟨lost, hlost⟩ : ∃ lost, f.tables.length - UInt32.size = lost := ⟨_, rfl⟩
  rw [hlost, List.pairwise_iff_getElem]
  constructor
  · intro apart i j t u ht hu kept lt
    obtain ⟨hi, rfl⟩ := List.getElem?_eq_some_iff.1 ht
    obtain ⟨hj, rfl⟩ := List.getElem?_eq_some_iff.1 hu
    obtain ⟨i, rfl⟩ := Nat.exists_eq_add_of_le (show lost ≤ i by omega)
    obtain ⟨j, rfl⟩ := Nat.exists_eq_add_of_le (show lost ≤ j by omega)
    have apart := apart i j (by rw [List.length_drop]; omega) (by rw [List.length_drop]; omega)
      (by omega)
    rwa [List.getElem_drop, List.getElem_drop] at apart
  · intro apart i j hi hj lt
    rw [List.getElem_drop, List.getElem_drop]
    exact apart (lost + i) (lost + j) _ _ (List.getElem?_eq_getElem _) (List.getElem?_eq_getElem _)
      (by omega) (by omega)

theorem Lists.namesOnce_iff (h : d.Lists f.tables) : f.NamesOnce name ↔
    ∀ r s, d.Bears name r → d.Bears name s → r = s := by
  rw [Document.namesOnce_iff]
  constructor
  · intro apart r s bearsr bearss
    obtain ⟨i, t, ht, keptt, namet, rfl⟩ := (h.bears name r).1 bearsr
    obtain ⟨j, u, hu, keptu, nameu, rfl⟩ := (h.bears name s).1 bearss
    rcases Nat.lt_trichotomy i j with lt | rfl | gt
    · exact absurd nameu (apart i j t u ht hu keptt lt namet)
    · rfl
    · exact absurd namet (apart j i u t hu ht keptu gt nameu)
  · intro one i j t u ht hu kept lt namet nameu
    have inside := (List.getElem?_eq_some_iff.1 hu).1
    have same := one _ _ ((h.bears name _).2 ⟨i, t, ht, kept, namet, rfl⟩)
      ((h.bears name _).2 ⟨j, u, hu, by omega, nameu, rfl⟩)
    rcases (TableRef.ofNat_eq_iff (by omega) (by omega)).1 same with same | same <;> omega

variable [Scalar α]

/-- On the document of a fixture, a name leads a compile with the document's own map to the table
that the document finds by that name exactly if the fixture does not list the name twice. That table
is then the one whose columns are found by the name, and the source of all that summarise the
name. -/
theorem tableMap_agrees (built : ofFixture f = .ok d) (name : String) :
    (d.tableMap.get? name = d.tableRef? name ↔ f.NamesOnce name) ∧
    (∀ (t : Layout α) plan, Plan.make (some t) d.tableMap = .ok plan →
      ∀ i type info, t.panes[i]? = some (.new name type info) →
        ∃ c ∈ plan.creations, c.paneIndex = i ∧ d.tableMap.get? name = some c.table ∧
          (d.tableRef? name = some c.table ↔ f.NamesOnce name)) ∧
    (f.NamesOnce name → ∀ column, d.columnRef? name column =
      ((d.tableMap.get? name).bind d.tables.get?).bind fun table =>
        (table.columns.find? fun c => c.id == column).map (·.ref)) ∧
    (f.tables.length < UInt32.size → ∀ i t, f.tables[i]? = some t → t.summaryOf = some name →
      ∃ r, (client.summarySource (.ofNat (i + 1)) d).1 = .ok (some r) ∧
        d.tableRef? name = some r ∧ (d.tableMap.get? name = some r ↔ f.NamesOnce name)) := by
  have lists := Lists.of_fixture built
  have agree : d.tableMap.get? name = d.tableRef? name ↔ f.NamesOnce name :=
    tableMap_eq_iff.trans lists.namesOnce_iff.symm
  refine ⟨agree, ?_, ?_, ?_⟩
  · intro t plan made i type info hp
    obtain ⟨t', same, -, draws⟩ := Plan.make_ok made
    obtain rfl := Option.some.inj same
    obtain ⟨c, hc, index, mapped⟩ := draws.follows.creation_of_new hp
    refine ⟨c, hc, index, mapped, ?_⟩
    rw [← agree, mapped, eq_comm]
  · intro once column
    simp only [agree.2 once, columnRef?, Option.bind_assoc, Option.map_eq_bind]
    rfl
  · intro room i t ht summary
    obtain ⟨r, found, stored⟩ := lists.sources room i t ht name summary
    exact ⟨r, stored, found, by rw [← agree, found]⟩

/-- Two tables of their own name, and a summary of the first. -/
def stock : DocumentFixture Rat :=
  ⟨[⟨"Orders", [⟨"Total", "Numeric"⟩], none⟩, ⟨"Items", [⟨"Order", "Ref"⟩], none⟩,
    ⟨"Totals", [⟨"Total", "Numeric"⟩], some "Orders"⟩], []⟩

theorem tableMap_agrees_stock : ∃ d, ofFixture stock = .ok d ∧
    d.tableMap.get? "Orders" = some ⟨1⟩ ∧ d.tableMap.get? "Orders" = d.tableRef? "Orders" ∧
    (∃ plan : Plan Rat, Plan.make (some (.pane (.new "Orders" .grid .none))) d.tableMap = .ok plan ∧
      ∃ c ∈ plan.creations, d.tableRef? "Orders" = some c.table) ∧
    ∃ r, (client.summarySource ⟨3⟩ d).1 = .ok (some r) ∧ d.tableMap.get? "Orders" = some r := by
  have once : stock.NamesOnce "Orders" := by decide
  refine ⟨_, rfl, by decide +kernel, ?_⟩
  obtain ⟨agree, plans, -, sources⟩ := tableMap_agrees (f := stock) rfl "Orders"
  refine ⟨agree.2 once, ⟨_, rfl, ?_⟩, ?_⟩
  · obtain ⟨c, hc, -, -, found⟩ := plans (.pane _) _ rfl 0 .grid .none rfl
    exact ⟨c, hc, found.2 once⟩
  · obtain ⟨r, stored, -, mapped⟩ := sources (by decide) 2 _ rfl rfl
    exact ⟨r, stored, mapped.2 once⟩

/-- A name that is listed twice: the search stops at the first table, and a new pane is planned on
the second. -/
theorem listed_twice : ∃ (d : Document Rat) (plan : Plan Rat),
    ofFixture ⟨[⟨"Orders", [], none⟩, ⟨"Orders", [], none⟩], []⟩ = .ok d ∧
    d.tableRef? "Orders" = some ⟨1⟩ ∧ d.tableMap.get? "Orders" = some ⟨2⟩ ∧
    Plan.make (some (.pane (.new "Orders" .grid .none))) d.tableMap = .ok plan ∧
    plan.creations.map (·.table) = [⟨2⟩] :=
  ⟨_, _, rfl, by decide +kernel, by decide +kernel, rfl, by decide +kernel⟩

end Document
end PaneLayout
