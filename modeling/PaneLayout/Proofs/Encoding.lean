import PaneLayout.Datum.Outcome
import PaneLayout.Proofs.Fields
import PaneLayout.Proofs.SortedMap

set_option autoImplicit false

/-!
# Requests, mutations and errors as data

Each of them is a JSON value when it is written, and is read again as what it was. Every variant of
a union has its own name, and a field that is left out is one that had no value.
-/

namespace PaneLayout

variable {double : Float → Prop}

namespace Datum

attribute [simp] IsJson.null IsJson.bool IsJson.text

@[simp] theorem word?_ofWord (w : UInt32) : (ofWord w).word? = some w := by
  have lt : w.toNat < Nat.pow 2 32 := w.toNat_lt
  rw [word?, ofWord, natBelow?, if_pos lt, Option.map_some, UInt32.ofNat_toNat]

@[simp] theorem isJson_ofWord (w : UInt32) : (ofWord w).IsJson double :=
  .unsigned (w.toNat_lt.trans (by norm_num))

theorem isJson_ofList {β : Type} {f : β → Datum} {bs : List β}
    (each : ∀ b ∈ bs, (f b).IsJson double) : (ofList f bs).IsJson double := by
  refine .list fun d hd => ?_
  obtain ⟨b, hb, rfl⟩ := List.mem_map.1 hd
  exact each b hb

theorem datum_float {x : Float} (h : x.isFinite) : Scalar.datum x = real x := if_pos h

theorem float?_datum {x : Float} (h : x.isFinite) : (Scalar.datum x).float? = some x := by
  rw [datum_float h]
  rfl

theorem isJson_float (finite : ∀ x, double x → x.isFinite) {x : Float} (h : double x) :
    (Scalar.datum x).IsJson double := by
  rw [datum_float (finite x h)]
  exact .real h

end Datum

@[simp] theorem SectionId.ofDatum?_datum (id : SectionId) : ofDatum? id.datum = some id := by
  simp [ofDatum?, datum]

@[simp] theorem SectionId.isJson (id : SectionId) : id.datum.IsJson double := Datum.isJson_ofWord _

@[simp] theorem TableRef.ofDatum?_datum (t : TableRef) : ofDatum? t.datum = some t := by
  simp [ofDatum?, datum]

@[simp] theorem TableRef.isJson (t : TableRef) : t.datum.IsJson double := Datum.isJson_ofWord _

@[simp] theorem ViewRef.ofDatum?_datum (v : ViewRef) : ofDatum? v.datum = some v := by
  simp [ofDatum?, datum]

@[simp] theorem ViewRef.isJson (v : ViewRef) : v.datum.IsJson double := Datum.isJson_ofWord _

@[simp] theorem ColumnRef.ofDatum?_datum (c : ColumnRef) : ofDatum? c.datum = some c := by
  simp [ofDatum?, datum]

@[simp] theorem ColumnRef.isJson (c : ColumnRef) : c.datum.IsJson double := Datum.isJson_ofWord _

theorem WidgetType.mem_all (t : WidgetType) : t ∈ all := by cases t <;> decide

@[simp] theorem WidgetType.ofDatum?_datum (mode : Mode) (t : WidgetType) :
    ofDatum? mode t.datum = some t := by
  exact Datum.oneOf?_text (by decide) t.mem_all

@[simp] theorem WidgetType.isJson (t : WidgetType) : t.datum.IsJson double := .text _

theorem MutationKind.mem_all (k : MutationKind) : k ∈ all := by cases k <;> decide

@[simp] theorem MutationKind.ofDatum?_datum (mode : Mode) (k : MutationKind) :
    ofDatum? mode k.datum = some k := by
  exact Datum.oneOf?_text (by decide) k.mem_all

@[simp] theorem MutationKind.isJson (k : MutationKind) : k.datum.IsJson double := .text _

theorem Axis.mem_all (a : Axis) : a ∈ all := by cases a <;> decide

@[simp] theorem Axis.ofDatum?_datum (mode : Mode) (a : Axis) : ofDatum? mode a.datum = some a := by
  exact Datum.oneOf?_text (by decide) a.mem_all

@[simp] theorem Axis.isJson (a : Axis) : a.datum.IsJson double := .text _

theorem LinkKind.mem_all (k : LinkKind) : k ∈ all := by cases k <;> decide

@[simp] theorem LinkTarget.ofDatum?_datum (t : LinkTarget) : ofDatum? t.datum = some t := by
  cases t with
  | id i => simp [ofDatum?, datum]
  | name key => rfl

@[simp] theorem LinkTarget.isJson (t : LinkTarget) : t.datum.IsJson double := by
  cases t with
  | id i => exact i.isJson
  | name key => exact .text key

namespace WidgetInfo

theorem datum_eq (w : WidgetInfo) : w.datum = .record (Datum.given
    [("section_id", some w.id.datum), ("table_ref", some w.table.datum),
      ("widget_type", some w.type.datum), ("title", w.title.map .text),
      ("description", w.description.map .text),
      ("link_src_section_ref", some (.ofWord w.linkSource)),
      ("link_src_col_ref", some (.ofWord w.linkSourceCol)),
      ("link_target_col_ref", some (.ofWord w.linkTargetCol))]) := by
  simp [datum, Datum.given, Datum.optionalField]

@[simp] theorem isJson (w : WidgetInfo) : w.datum.IsJson double := by
  rw [datum_eq]
  exact Datum.isJson_given (by simp) (by simp)

@[simp] theorem ofDatum?_datum (mode : Mode) (w : WidgetInfo) : ofDatum? mode w.datum = some w := by
  rw [datum_eq, ofDatum?, Fields.ofDatum?_given (by rfl) (by decide)]
  simp

end WidgetInfo

namespace LinkTuple

theorem datum_eq (t : LinkTuple) : t.datum = .record (Datum.given
    [("src_section", some t.source.datum), ("src_col", some t.sourceCol.datum),
      ("target_col", some t.targetCol.datum)]) := rfl

@[simp] theorem isJson (t : LinkTuple) : t.datum.IsJson double := by
  rw [datum_eq]
  exact Datum.isJson_given (by simp) (by simp)

@[simp] theorem ofDatum?_datum (t : LinkTuple) : ofDatum? t.datum = some t := by
  rw [datum_eq, ofDatum?, Fields.ofDatum?_given (by rfl) (by decide)]
  simp

end LinkTuple

namespace Issue

theorem datum_eq (i : Issue) : i.datum = .record (Datum.given
    [("rule", some (.text i.rule)), ("message", some (.text i.message))]) := rfl

@[simp] theorem isJson (i : Issue) : i.datum.IsJson double := by
  rw [datum_eq]
  exact Datum.isJson_given (by simp) (by simp)

@[simp] theorem ofDatum?_datum (i : Issue) : ofDatum? i.datum = some i := by
  rw [datum_eq, ofDatum?, Fields.ofDatum?_given (by rfl) (by decide)]
  rfl

end Issue

namespace DanglingLink

theorem datum_eq (l : DanglingLink) : l.datum = .record (Datum.given
    [("owner", some (.text l.owner)), ("target", some l.target.datum)]) := rfl

@[simp] theorem isJson (l : DanglingLink) : l.datum.IsJson double := by
  rw [datum_eq]
  exact Datum.isJson_given (by simp) (by simp)

@[simp] theorem ofDatum?_datum (l : DanglingLink) : ofDatum? l.datum = some l := by
  rw [datum_eq, ofDatum?, Fields.ofDatum?_given (by rfl) (by decide)]
  simp [Datum.text?]

end DanglingLink

namespace Link

def slots : Link → List (String × Option Datum)
  | childOf s | syncedWith s | breakdownOf s => [("from", some s.datum)]
  | filteredBy s c | listedIn s c => [("from", some s.datum), ("col", some (.text c))]
  | matchedBy s c t =>
    [("from", some s.datum), ("col", some (.text c)), ("to", some (.text t))]

theorem datum_eq (l : Link) :
    l.datum = .record (Datum.given (("kind", some (.text l.kind.text)) :: l.slots)) := by
  cases l <;> rfl

theorem slots_distinct (l : Link) : ("kind" :: l.slots.map (·.1)).Nodup := by
  cases l <;> simp [slots]

theorem isJson_slots (l : Link) : ∀ s ∈ l.slots, ∀ d ∈ s.2, d.IsJson double := by
  cases l <;> simp [slots]

@[simp] theorem isJson (l : Link) : l.datum.IsJson double := by
  rw [datum_eq]
  exact Datum.isJson_tagged _ l.slots_distinct l.isJson_slots

theorem ofBody?_slots (l : Link) : ofBody? l.kind (.record (Datum.given l.slots)) = some l := by
  cases l <;>
    (simp only [ofBody?, kind, slots]
     rw [Fields.ofDatum?_given (by rfl) (by decide)]
     simp [Datum.text?])

@[simp] theorem ofDatum?_datum (mode : Mode) (l : Link) : ofDatum? mode l.datum = some l := by
  have distinct : (LinkKind.all.map LinkKind.text).Nodup := by decide
  obtain ⟨i, kind, index⟩ := Datum.exists_place distinct l.kind.mem_all
  rw [datum_eq, ofDatum?, Datum.tagged?_given index l.slots_distinct l.isJson_slots]
  simp [kind, ofBody?_slots]

@[simp] theorem option?_datum (o : Option Link) :
    o.elim (some none) (Datum.option? (ofDatum? .gathered) ∘ datum) = some o :=
  Datum.option?_comp (fun l _ => l.ofDatum?_datum .gathered) fun _ h => nomatch h

end Link

/-! ## Panes -/

namespace PaneInfo

def slots (i : PaneInfo) : List (String × Option Datum) :=
  [("name", i.name.map .text), ("title", i.title.map .text),
    ("description", i.description.map .text), ("link", i.link.map Link.datum)]

theorem fields_eq (i : PaneInfo) : i.fields = Datum.given i.slots := by
  simp [fields, slots, Datum.given]

end PaneInfo

namespace Pane

def kind : Pane → String
  | leaf _ => "Leaf"
  | new _ _ _ => "NewPane"
  | existing _ _ => "ExistingPane"

def slots : Pane → List (String × Option Datum)
  | leaf id => [("section", some id.datum)]
  | new table type i =>
    [("table", some (.text table)), ("widget_type", some type.datum)] ++ i.slots
  | existing id i => [("section", some id.datum)] ++ i.slots

theorem datum_eq (p : Pane) :
    p.datum = .record (Datum.given (("kind", some (.text p.kind)) :: p.slots)) := by
  cases p <;> simp [datum, slots, kind, Datum.given, Datum.optionalField, PaneInfo.fields_eq]

theorem slots_distinct (p : Pane) : ("kind" :: p.slots.map (·.1)).Nodup := by
  cases p <;> simp [slots, PaneInfo.slots]

theorem isJson_slots (p : Pane) : ∀ s ∈ p.slots, ∀ d ∈ s.2, d.IsJson double := by
  cases p <;> simp [slots, PaneInfo.slots]

@[simp] theorem isJson (p : Pane) : p.datum.IsJson double := by
  rw [datum_eq]
  exact Datum.isJson_tagged _ p.slots_distinct p.isJson_slots

end Pane

/-! ## Layouts -/

namespace Layout

theorem ofBody?_pane (child : Datum → Option (Layout Float)) (p : Pane) :
    ∃ i, kinds.idxOf? p.kind = some i ∧
      ofBody? child i (.record (Datum.given p.slots)) = some (pane p) := by
  cases p with
  | leaf id =>
    refine ⟨0, by rw [Pane.kind]; decide, ?_⟩
    rw [ofBody?, Pane.slots, Fields.ofDatum?_given (by rfl) (by decide)]
    simp
  | new table type i =>
    refine ⟨1, by rw [Pane.kind]; decide, ?_⟩
    rw [ofBody?, Pane.slots, Fields.ofDatum?_given (by rfl) (by decide)]
    simp [PaneInfo.ofFields?, PaneInfo.slots, Datum.text?]
  | existing id i =>
    refine ⟨2, by rw [Pane.kind]; decide, ?_⟩
    rw [ofBody?, Pane.slots, Fields.ofDatum?_given (by rfl) (by decide)]
    simp [PaneInfo.ofFields?, PaneInfo.slots]

section
variable {α : Type}

/-- What holds of all panes, and of a split if it holds of its children. -/
theorem induct {P : Layout α → Prop} (pane : ∀ p, P (pane p))
    (split : ∀ axis cs ws, (∀ c ∈ cs, P c) → P (split axis cs ws)) (t : Layout α) : P t :=
  Layout.rec (motive_2 := fun cs => ∀ c ∈ cs, P c) pane (fun axis cs ws ih => split axis cs ws ih)
    (List.forall_mem_nil _) (fun _ _ here rest => List.forall_mem_cons.2 ⟨here, rest⟩) t

theorem dataOf_eq [Scalar α] (cs : List (Layout α)) : dataOf cs = cs.map datum := by
  induction cs with
  | nil => rfl
  | cons c cs ih => rw [dataOf, ih, List.map_cons]

theorem nodesOf_eq (cs : List (Layout α)) : nodesOf cs = cs.flatMap nodes := by
  induction cs with
  | nil => rfl
  | cons c cs ih => rw [nodesOf, ih, List.flatMap_cons]

/-- All weights in the tree are of one kind. -/
def AllWeights (kind : α → Prop) (t : Layout α) : Prop :=
  ∀ s ∈ t.nodes, ∀ ws ∈ s.weights, ∀ w ∈ ws, kind w

theorem allWeights_split {kind : α → Prop} {axis : Axis} {cs : List (Layout α)}
    {ws : Option (List α)} : (split axis cs ws).AllWeights kind ↔
      (∀ xs ∈ ws, ∀ w ∈ xs, kind w) ∧ ∀ c ∈ cs, c.AllWeights kind := by
  unfold AllWeights
  rw [nodes, List.forall_mem_cons, nodesOf_eq, List.forall_mem_flatMap]
  rfl

end

def splitSlots (cs : List (Layout Float)) (ws : Option (List Float)) :
    List (String × Option Datum) :=
  [("children", some (.ofList datum cs)), ("weights", ws.map (.ofList Scalar.datum))]

theorem datum_split (axis : Axis) (cs : List (Layout Float)) (ws : Option (List Float)) :
    (split axis cs ws).datum =
      .record (Datum.given (("kind", some (.text axis.splitKind)) :: splitSlots cs ws)) := by
  simp [datum, dataOf_eq, splitSlots, Datum.given, Datum.optionalField, Datum.ofList]

theorem children_mem (cs : List (Layout Float)) (ws : Option (List Float)) :
    ("children", some (.ofList datum cs)) ∈ splitSlots cs ws :=
  List.mem_cons_self

theorem splitSlots_distinct (cs : List (Layout Float)) (ws : Option (List Float)) :
    ("kind" :: (splitSlots cs ws).map (·.1)).Nodup := by
  simp [splitSlots]

theorem isJson_splitSlots (finite : ∀ x, double x → x.isFinite) {cs : List (Layout Float)}
    {ws : Option (List Float)} (children : ∀ c ∈ cs, c.datum.IsJson double)
    (weights : ∀ xs ∈ ws, ∀ w ∈ xs, double w) :
    ∀ s ∈ splitSlots cs ws, ∀ d ∈ s.2, d.IsJson double := by
  refine List.forall_mem_cons.2 ⟨?_, List.forall_mem_singleton.2 ?_⟩
  · rintro _ ⟨⟩
    exact Datum.isJson_ofList children
  · intro d hd
    obtain ⟨xs, hxs, rfl⟩ := Option.mem_map.1 hd
    exact Datum.isJson_ofList fun w hw => Datum.isJson_float finite (weights xs hxs w hw)

theorem isJson (finite : ∀ x, double x → x.isFinite) {t : Layout Float}
    (weights : t.AllWeights double) : t.datum.IsJson double := by
  induction t using induct with
  | pane p => exact p.isJson
  | split axis cs ws ih =>
    obtain ⟨own, below⟩ := allWeights_split.1 weights
    rw [datum_split]
    exact Datum.isJson_tagged _ (splitSlots_distinct cs ws)
      (isJson_splitSlots finite (fun c hc => ih c hc (below c hc)) own)

theorem ofBody?_split (finite : ∀ x, double x → x.isFinite)
    {child : Datum → Option (Layout Float)} (axis : Axis) {cs : List (Layout Float)}
    {ws : Option (List Float)} (children : ∀ c ∈ cs, child c.datum = some c)
    (weights : ∀ xs ∈ ws, ∀ w ∈ xs, double w) :
    ∃ i, kinds.idxOf? axis.splitKind = some i ∧
      ofBody? child i (.record (Datum.given (splitSlots cs ws))) = some (split axis cs ws) := by
  have read : Datum.listOf? child (.ofList datum cs) = some cs := Datum.listOf?_ofList children
  have read' : ws.elim (some none)
      (Datum.option? (Datum.listOf? Datum.float?) ∘ Datum.ofList Scalar.datum) = some ws :=
    Datum.option?_comp (fun xs hxs => Datum.listOf?_ofList fun w hw =>
      Datum.float?_datum (finite w (weights xs hxs w hw))) fun _ h => nomatch h
  cases axis with
  | horizontal =>
    refine ⟨3, by decide, ?_⟩
    simp only [ofBody?]
    rw [splitSlots, Fields.ofDatum?_given (by rfl) (by decide)]
    simp [read, read']
  | vertical =>
    refine ⟨4, by decide, ?_⟩
    simp only [ofBody?]
    rw [splitSlots, Fields.ofDatum?_given (by rfl) (by decide)]
    simp [read, read']

theorem exists_level {d : Datum} {levels : ℕ} (enough : d.depth ≤ levels) :
    ∃ n, levels = n + 1 :=
  ⟨levels - 1, by have := d.depth_pos; omega⟩

/-- A layout is read within the levels that its data have. -/
theorem ofDatumWithin?_datum (finite : ∀ x, double x → x.isFinite) {t : Layout Float}
    (weights : t.AllWeights double) (mode : Mode) {levels : ℕ} (enough : t.datum.depth ≤ levels) :
    ofDatumWithin? levels mode t.datum = some t := by
  induction t using induct generalizing mode levels with
  | pane p =>
    obtain ⟨levels, rfl⟩ := exists_level enough
    obtain ⟨i, index, read⟩ := ofBody?_pane (ofDatumWithin? levels .gathered) p
    rw [ofDatumWithin?, datum, p.datum_eq, Datum.tagged?_given index p.slots_distinct p.isJson_slots]
    exact read
  | split axis cs ws ih =>
    obtain ⟨own, below⟩ := allWeights_split.1 weights
    rw [datum_split] at enough ⊢
    obtain ⟨levels, rfl⟩ := exists_level enough
    have children : ∀ c ∈ cs, ofDatumWithin? levels .gathered c.datum = some c := by
      intro c hc
      have inner : c.datum.depth < (Datum.ofList datum cs).depth :=
        Datum.depth_lt_list (List.mem_map_of_mem hc)
      have outer := Datum.depth_lt_given (List.mem_cons_of_mem ("kind", some (.text axis.splitKind))
        (children_mem cs ws))
      exact ih c hc (below c hc) .gathered (by omega)
    obtain ⟨i, index, read⟩ := ofBody?_split finite axis children own
    have json := isJson_splitSlots finite (fun c hc => isJson finite (below c hc)) own
    rw [ofDatumWithin?, Datum.tagged?_given index (splitSlots_distinct cs ws)
      fun s hs d hd => (json s hs d hd).mono fun _ _ => trivial]
    exact read

theorem ofDatum?_datum (finite : ∀ x, double x → x.isFinite) {t : Layout Float}
    (weights : t.AllWeights double) (mode : Mode) : ofDatum? mode t.datum = some t :=
  ofDatumWithin?_datum finite weights mode (Nat.le_refl _)

theorem datum_ne_null (t : Layout Float) : t.datum ≠ .null := by
  cases t with
  | pane p => cases p <;> exact fun h => nomatch h
  | split axis cs ws => exact fun h => nomatch h

end Layout

/-! ## Requests -/

namespace TableMap

theorem isJson (tables : TableMap) : (datum tables).IsJson double := by
  refine .record ?_ fun f hf => ?_
  · rw [List.map_map]
    exact tables.keys_nodup
  · obtain ⟨e, -, rfl⟩ := List.mem_map.1 hf
    exact e.2.isJson

theorem ofDatum?_datum (tables : TableMap) : ofDatum? (datum tables) = some tables := by
  have entries : ∀ es : List (String × TableRef),
      ((es.map fun e => (e.1, e.2.datum)).map fun f => (Datum.text f.1, f.2)).mapM entry? =
        some es := by
    intro es
    induction es with
    | nil => rfl
    | cons e es ih =>
      rw [List.map_cons, List.map_cons, List.mapM_cons, ih]
      unfold entry?
      simp [Datum.text?]
  rw [datum, Datum.record, ofDatum?, entries, Option.map_some, SortedMap.ofList_toList]

end TableMap

namespace LayoutRequest

/-- All weights in the layout are of one kind. -/
def AllWeights {α : Type} (kind : α → Prop) (r : LayoutRequest α) : Prop :=
  ∀ t ∈ r.layout, t.AllWeights kind

theorem datum_eq (r : LayoutRequest Float) : r.datum = .record (Datum.given
    [("view", r.view.map ViewRef.datum), ("tables", some (TableMap.datum r.tables)),
      ("layout", r.layout.map Layout.datum)]) := by
  simp [datum, Datum.given, Datum.optionalField]

variable (finite : ∀ x, double x → x.isFinite) {r : LayoutRequest Float}
  (weights : r.AllWeights double)
include finite weights

theorem isJson : r.datum.IsJson double := by
  rw [datum_eq]
  refine Datum.isJson_given (by simp) (List.forall_mem_cons.2 ⟨by simp, List.forall_mem_cons.2
    ⟨?_, List.forall_mem_singleton.2 fun d hd => ?_⟩⟩)
  · rintro _ ⟨⟩
    exact TableMap.isJson r.tables
  · obtain ⟨t, ht, rfl⟩ := Option.mem_map.1 hd
    exact t.isJson finite (weights t ht)

/-- A request is read as what it was written from. -/
theorem ofDatum?_datum : ofDatum? r.datum = some r := by
  have view : r.view.elim (some none) (Datum.option? ViewRef.ofDatum? ∘ ViewRef.datum) = some r.view :=
    Datum.option?_comp (fun v _ => v.ofDatum?_datum) fun _ h => nomatch h
  have layout : r.layout.elim (some none) (Datum.option? (Layout.ofDatum? .direct) ∘ Layout.datum) =
      some r.layout :=
    Datum.option?_comp (fun t ht => t.ofDatum?_datum finite (weights t ht) .direct)
      Layout.datum_ne_null
  rw [datum_eq, ofDatum?, Fields.ofDatum?_given (by rfl) (by decide)]
  simp [view, layout, TableMap.ofDatum?_datum]

end LayoutRequest

end PaneLayout
