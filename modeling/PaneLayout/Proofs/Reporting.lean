import PaneLayout.Proofs.Encoding
import PaneLayout.Proofs.Proportions

set_option autoImplicit false

/-!
# Mutations and errors as data

A native page is a union that holds itself twice, so it is read as a layout is, within the levels
that its data have. An error may hold a second union, the step that failed, under a tag of its own.
-/

namespace PaneLayout

variable {double : Float → Prop}

/-! ## Native pages -/

namespace Native

theorem forall_ratios_split {kind : Float → Prop} {axis : Axis} {ratio : Float}
    {a b : Native Float SectionId} : (∀ x ∈ (split axis ratio a b).ratios, kind x) ↔
      kind ratio ∧ (∀ x ∈ a.ratios, kind x) ∧ ∀ x ∈ b.ratios, kind x := by
  rw [ratios, List.forall_mem_cons, List.forall_mem_append]

def kind : Native Float SectionId → String
  | leaf _ => "leaf"
  | split _ _ _ _ => "split"

def slots : Native Float SectionId → List (String × Option Datum)
  | leaf id => [("section", some id.datum)]
  | split axis ratio a b => [("axis", some axis.datum), ("ratio", some (Scalar.datum ratio)),
      ("first", some a.datum), ("second", some b.datum)]

theorem datum_eq (n : Native Float SectionId) :
    n.datum = .record (Datum.given (("kind", some (.text n.kind)) :: n.slots)) := by
  cases n <;> rfl

theorem slots_distinct (n : Native Float SectionId) : ("kind" :: n.slots.map (·.1)).Nodup := by
  cases n <;> simp [slots]

theorem depth_children_lt (axis : Axis) (ratio : Float) (a b : Native Float SectionId) :
    a.datum.depth < (split axis ratio a b).datum.depth ∧
      b.datum.depth < (split axis ratio a b).datum.depth := by
  have first : ("first", some a.datum) ∈ (split axis ratio a b).slots := by simp [slots]
  have second : ("second", some b.datum) ∈ (split axis ratio a b).slots := by simp [slots]
  rw [datum_eq (split axis ratio a b)]
  exact ⟨Datum.depth_lt_given (List.mem_cons_of_mem _ first),
    Datum.depth_lt_given (List.mem_cons_of_mem _ second)⟩

variable (finite : ∀ x, double x → x.isFinite)
include finite

theorem isJson_splitSlots (axis : Axis) {ratio : Float} {a b : Native Float SectionId}
    (own : double ratio) (first : a.datum.IsJson double) (second : b.datum.IsJson double) :
    ∀ s ∈ (split axis ratio a b).slots, ∀ d ∈ s.2, d.IsJson double := by
  simp [slots, Datum.isJson_float finite own, first, second]

theorem isJson {n : Native Float SectionId} (doubles : ∀ x ∈ n.ratios, double x) :
    n.datum.IsJson double := by
  induction n with
  | leaf id =>
    rw [datum_eq]
    exact Datum.isJson_tagged _ (slots_distinct _) (by simp [slots])
  | split axis ratio a b iha ihb =>
    obtain ⟨own, first, second⟩ := forall_ratios_split.1 doubles
    rw [datum_eq]
    exact Datum.isJson_tagged _ (slots_distinct _)
      (isJson_splitSlots finite axis own (iha first) (ihb second))

/-- A page is read within the levels that its data have. -/
theorem ofDatumWithin?_datum {n : Native Float SectionId} (doubles : ∀ x ∈ n.ratios, double x)
    (mode : Mode) {levels : ℕ} (enough : n.datum.depth ≤ levels) :
    ofDatumWithin? levels mode n.datum = some n := by
  induction n generalizing mode levels with
  | leaf id =>
    obtain ⟨levels, rfl⟩ := Layout.exists_level enough
    have tag : ["leaf", "split"].idxOf? (leaf (α := Float) id).kind = some 0 := by
      rw [kind]
      decide
    rw [ofDatumWithin?, datum_eq, Datum.tagged?_given tag (slots_distinct _) (by simp [slots])]
    simp only [slots, bind, Option.bind, if_true]
    rw [Fields.ofDatum?_given (by rfl) (by decide)]
    simp
  | split axis ratio a b iha ihb =>
    obtain ⟨own, first, second⟩ := forall_ratios_split.1 doubles
    obtain ⟨levels, rfl⟩ := Layout.exists_level enough
    obtain ⟨lta, ltb⟩ := depth_children_lt axis ratio a b
    have tag : ["leaf", "split"].idxOf? (split axis ratio a b).kind = some 1 := by
      rw [kind]
      decide
    have json := isJson_splitSlots finite axis own (isJson finite first) (isJson finite second)
    rw [ofDatumWithin?, datum_eq, Datum.tagged?_given tag (slots_distinct _)
      fun s hs d hd => (json s hs d hd).mono fun _ _ => trivial]
    have readFirst := iha first .gathered (by omega : _ ≤ levels)
    have readSecond := ihb second .gathered (by omega : _ ≤ levels)
    simp only [slots, bind, Option.bind, one_ne_zero, if_false]
    rw [Fields.ofDatum?_given (by rfl) (by decide)]
    simp [Datum.float?_datum (finite _ own), readFirst, readSecond]

theorem ofDatum?_datum {n : Native Float SectionId} (doubles : ∀ x ∈ n.ratios, double x)
    (mode : Mode) : ofDatum? mode n.datum = some n :=
  ofDatumWithin?_datum finite doubles mode (Nat.le_refl _)

end Native

/-! ## Mutations -/

namespace Mutation

/-- The doubles that a mutation writes. -/
def ratios {α : Type} : Mutation α → List α
  | setLayout _ layout => layout.ratios
  | setLink _ _ => []
  | setSectionInfo _ _ _ => []

def slots : Mutation Float → List (String × Option Datum)
  | setLayout view layout => [("view", some view.datum), ("layout", some layout.datum)]
  | setLink id link => [("section", some id.datum), ("link", some link.datum)]
  | setSectionInfo id title description => [("section", some id.datum),
      ("title", title.map .text), ("description", description.map .text)]

theorem datum_eq (m : Mutation Float) :
    m.datum = .record (Datum.given (("action", some (.text m.kind.text)) :: m.slots)) := by
  cases m <;> simp [datum, slots, kind, MutationKind.text, Datum.given, Datum.optionalField]

theorem slots_distinct (m : Mutation Float) : ("action" :: m.slots.map (·.1)).Nodup := by
  cases m <;> simp [slots]

variable (finite : ∀ x, double x → x.isFinite) {m : Mutation Float}
  (doubles : ∀ x ∈ m.ratios, double x)
include finite doubles

theorem isJson_slots : ∀ s ∈ m.slots, ∀ d ∈ s.2, d.IsJson double := by
  cases m with
  | setLayout view layout => simp [slots, layout.isJson finite doubles]
  | setLink id link => simp [slots]
  | setSectionInfo id title description => simp [slots]

theorem isJson : m.datum.IsJson double := by
  rw [datum_eq]
  exact Datum.isJson_tagged _ m.slots_distinct (isJson_slots finite doubles)

theorem ofDatum?_datum (mode : Mode) : ofDatum? mode m.datum = some m := by
  have distinct : (MutationKind.all.map MutationKind.text).Nodup := by decide
  obtain ⟨i, kind, index⟩ := Datum.exists_place distinct m.kind.mem_all
  have json := isJson_slots finite doubles
  rw [datum_eq, ofDatum?, Datum.tagged?_given index m.slots_distinct
    fun s hs d hd => (json s hs d hd).mono fun _ _ => trivial]
  simp only [bind, Option.bind, kind]
  cases m with
  | setLayout view layout =>
    simp only [Mutation.kind, slots]
    rw [Fields.ofDatum?_given (by rfl) (by decide)]
    simp [layout.ofDatum?_datum finite doubles]
  | setLink id link =>
    simp only [Mutation.kind, slots]
    rw [Fields.ofDatum?_given (by rfl) (by decide)]
    simp
  | setSectionInfo id title description =>
    simp only [Mutation.kind, slots]
    rw [Fields.ofDatum?_given (by rfl) (by decide)]
    simp

end Mutation

/-! ## Errors -/

namespace FailedStep

/-- The positions that a step names. -/
def positions : FailedStep → List ℕ
  | createWidget i _ => [i]
  | applyMutations i _ => i.toList
  | fetchWidget _ | loadSchema _ | loadLayout _ => []

def kind : FailedStep → String
  | createWidget _ _ => "create_widget"
  | applyMutations _ _ => "apply_mutations"
  | fetchWidget _ => "fetch_widget"
  | loadSchema _ => "load_schema"
  | loadLayout _ => "load_layout"

/-- The place of a step's name among all of them. -/
def index : FailedStep → ℕ
  | createWidget _ _ => 0
  | applyMutations _ _ => 1
  | fetchWidget _ => 2
  | loadSchema _ => 3
  | loadLayout _ => 4

theorem idxOf?_kind (s : FailedStep) : stepNames.idxOf? s.kind = some s.index := by
  cases s <;> (rw [kind, index]; decide)

def slots : FailedStep → List (String × Option Datum)
  | createWidget i t => [("pane_index", some (.unsigned i)), ("table", some t.datum)]
  | applyMutations i k => [("index", i.map .unsigned), ("mutation", k.map MutationKind.datum)]
  | fetchWidget id => [("section", some id.datum)]
  | loadSchema t => [("table", some t.datum)]
  | loadLayout v => [("view", some v.datum)]

theorem datum_eq (s : FailedStep) :
    s.datum = .record (Datum.given (("step", some (.text s.kind)) :: s.slots)) := by
  cases s <;> simp [datum, slots, kind, Datum.given, Datum.optionalField]

theorem slots_distinct (s : FailedStep) : ("step" :: s.slots.map (·.1)).Nodup := by
  cases s <;> simp [slots]

theorem position?_unsigned {n : ℕ} (lt : n < 2 ^ 64) : position? (.unsigned n) = some n :=
  if_pos lt

variable {s : FailedStep} (words : ∀ i ∈ s.positions, i < 2 ^ 64)
include words

theorem isJson_slots : ∀ f ∈ s.slots, ∀ d ∈ f.2, d.IsJson double := by
  cases s with
  | createWidget i t =>
    have lt : i < 2 ^ 64 := words i List.mem_cons_self
    simp [slots, Datum.IsJson.unsigned lt]
  | applyMutations i k =>
    have lt : ∀ j ∈ i, j < 2 ^ 64 := fun j hj => words j (Option.mem_toList.2 hj)
    simp only [slots, List.forall_mem_cons, Option.mem_map, forall_exists_index, and_imp,
      forall_apply_eq_imp_iff₂]
    exact ⟨fun j hj => .unsigned (lt j hj), fun k _ => k.isJson, List.forall_mem_nil _⟩
  | fetchWidget id => simp [slots]
  | loadSchema t => simp [slots]
  | loadLayout v => simp [slots]

theorem isJson : s.datum.IsJson double := by
  rw [datum_eq]
  exact Datum.isJson_tagged _ s.slots_distinct (isJson_slots words)

theorem ofDatum?_datum (mode : Mode) : ofDatum? mode s.datum = some s := by
  rw [datum_eq, ofDatum?,
    Datum.tagged?_given s.idxOf?_kind s.slots_distinct (isJson_slots words)]
  simp only [bind, Option.bind]
  cases s with
  | createWidget i t =>
    have lt : i < 2 ^ 64 := words i List.mem_cons_self
    simp only [index, slots]
    rw [Fields.ofDatum?_given (by rfl) (by decide)]
    simp [position?_unsigned lt]
  | applyMutations i k =>
    have lt : ∀ j ∈ i, j < 2 ^ 64 := fun j hj => words j (Option.mem_toList.2 hj)
    have position : i.elim (some none) (Datum.option? position? ∘ Datum.unsigned) = some i :=
      Datum.option?_comp (fun j hj => position?_unsigned (lt j hj)) fun _ h => nomatch h
    have mutation : k.elim (some none)
        (Datum.option? (MutationKind.ofDatum? .gathered) ∘ MutationKind.datum) = some k :=
      Datum.option?_comp (fun k _ => k.ofDatum?_datum .gathered) fun _ h => nomatch h
    simp only [index, slots]
    rw [Fields.ofDatum?_given (by rfl) (by decide)]
    simp [position, mutation]
  | fetchWidget id =>
    simp only [index, slots]
    rw [Fields.ofDatum?_given (by rfl) (by decide)]
    simp
  | loadSchema t =>
    simp only [index, slots]
    rw [Fields.ofDatum?_given (by rfl) (by decide)]
    simp
  | loadLayout v =>
    simp only [index, slots]
    rw [Fields.ofDatum?_given (by rfl) (by decide)]
    simp

end FailedStep

namespace CompileError

/-- The positions that an error names. -/
def positions : CompileError → List ℕ
  | collaboratorFailure step _ _ => step.positions
  | _ => []

/-- The place of an error's name among all of them. -/
def index : CompileError → ℕ
  | malformedLayout _ => 0
  | unknownTable _ _ _ => 1
  | unknownColumn _ _ _ _ => 2
  | danglingLinkTarget _ _ => 3
  | collaboratorFailure _ _ _ => 4

theorem idxOf?_kindName (e : CompileError) : kindNames.idxOf? e.kindName = some e.index := by
  cases e <;> (rw [kindName, index]; decide)

/-- Every field of an error has a value. -/
def slots (e : CompileError) : List (String × Option Datum) := e.body.map fun f => (f.1, some f.2)

theorem datum_eq (e : CompileError) :
    e.datum = .record (Datum.given (("error_kind", some (.text e.kindName)) :: e.slots)) := by
  cases e <;> rfl

theorem slots_distinct (e : CompileError) : ("error_kind" :: e.slots.map (·.1)).Nodup := by
  cases e <;> simp [slots, body]

theorem isJson_texts (ts : List String) : (Datum.ofList .text ts).IsJson double :=
  Datum.isJson_ofList fun t _ => .text t

theorem isJson_widgets (ws : List WidgetInfo) : (Datum.ofList WidgetInfo.datum ws).IsJson double :=
  Datum.isJson_ofList fun w _ => w.isJson

theorem texts?_ofList (ts : List String) :
    Datum.listOf? Datum.text? (.ofList .text ts) = some ts :=
  Datum.listOf?_ofList fun _ _ => rfl

theorem widgets?_ofList (mode : Mode) (ws : List WidgetInfo) :
    Datum.listOf? (WidgetInfo.ofDatum? mode) (.ofList WidgetInfo.datum ws) = some ws :=
  Datum.listOf?_ofList fun w _ => w.ofDatum?_datum mode

variable {e : CompileError} (words : ∀ i ∈ e.positions, i < 2 ^ 64)
include words

theorem isJson_slots : ∀ s ∈ e.slots, ∀ d ∈ s.2, d.IsJson double := by
  cases e with
  | malformedLayout issues =>
    simp [slots, body, Datum.isJson_ofList fun i (_ : i ∈ issues) => i.isJson]
  | unknownTable table pane known => simp [slots, body, isJson_texts]
  | unknownColumn table column link known => simp [slots, body, isJson_texts]
  | danglingLinkTarget links created =>
    simp [slots, body, isJson_widgets, Datum.isJson_ofList fun l (_ : l ∈ links) => l.isJson]
  | collaboratorFailure step message created =>
    simp [slots, body, isJson_widgets, step.isJson words]

theorem isJson : e.datum.IsJson double := by
  rw [datum_eq]
  exact Datum.isJson_tagged _ e.slots_distinct (isJson_slots words)

/-- An error is read as what it was written from. -/
theorem ofDatum?_datum (mode : Mode) : ofDatum? mode e.datum = some e := by
  rw [datum_eq, ofDatum?,
    Datum.tagged?_given e.idxOf?_kindName e.slots_distinct (isJson_slots words)]
  simp only [bind, Option.bind]
  cases e with
  | malformedLayout issues =>
    have read : Datum.listOf? Issue.ofDatum? (.ofList Issue.datum issues) = some issues :=
      Datum.listOf?_ofList fun i _ => i.ofDatum?_datum
    simp only [index, slots, body, List.map]
    rw [Fields.ofDatum?_given (by rfl) (by decide)]
    simp [read]
  | unknownTable table pane known =>
    simp only [index, slots, body, List.map]
    rw [Fields.ofDatum?_given (by rfl) (by decide)]
    simp [Datum.text?, texts?_ofList]
  | unknownColumn table column link known =>
    simp only [index, slots, body, List.map]
    rw [Fields.ofDatum?_given (by rfl) (by decide)]
    simp [Datum.text?, texts?_ofList]
  | danglingLinkTarget links created =>
    have read : Datum.listOf? DanglingLink.ofDatum? (.ofList DanglingLink.datum links) =
        some links :=
      Datum.listOf?_ofList fun l _ => l.ofDatum?_datum
    simp only [index, slots, body, List.map]
    rw [Fields.ofDatum?_given (by rfl) (by decide)]
    simp [read, widgets?_ofList]
  | collaboratorFailure step message created =>
    simp only [index, slots, body, List.map]
    rw [Fields.ofDatum?_given (by rfl) (by decide)]
    simp [Datum.text?, step.ofDatum?_datum words, widgets?_ofList]

end CompileError
end PaneLayout
