import Mathlib.Data.List.Nodup
import PaneLayout.Datum.Fields
import PaneLayout.Proofs.JsonText

set_option autoImplicit false

/-!
# Reading records

A record whose fields are written in the order in which they are known is read field by field: each
position has what was written there, and nothing where the field was left out. A union is read by its
tag, and what is left of it is a record.
-/

namespace PaneLayout

variable {β : Type}

namespace Datum

/-! ## What is written -/

/-- The fields that have a value. -/
def given : List (String × Option Datum) → List (String × Datum)
  | [] => []
  | (name, d) :: slots => optionalField name d ++ given slots

theorem mem_given {slots : List (String × Option Datum)} {f : String × Datum} :
    f ∈ given slots ↔ (f.1, some f.2) ∈ slots := by
  induction slots with
  | nil => simp [given]
  | cons s slots ih =>
    obtain ⟨name, d⟩ := s
    rw [given, List.mem_append, ih, List.mem_cons]
    cases d with
    | none => simp [optionalField]
    | some d =>
      rw [optionalField, List.mem_singleton]
      simp [Prod.ext_iff]

theorem given_names_sublist (slots : List (String × Option Datum)) :
    ((given slots).map (·.1)).Sublist (slots.map (·.1)) := by
  induction slots with
  | nil => exact .slnil
  | cons s slots ih =>
    obtain ⟨name, d⟩ := s
    cases d with
    | none => exact ih.cons name
    | some d => exact ih.cons_cons name

theorem isJson_given {double : Float → Prop} {slots : List (String × Option Datum)}
    (distinct : (slots.map (·.1)).Nodup) (each : ∀ s ∈ slots, ∀ d ∈ s.2, d.IsJson double) :
    (record (given slots)).IsJson double :=
  .record ((given_names_sublist slots).nodup distinct) fun f hf => each _ (mem_given.1 hf) f.2 rfl

/-- A union is written with its tag first. -/
theorem isJson_tagged {double : Float → Prop} {tag : String} (name : String)
    {slots : List (String × Option Datum)} (distinct : (tag :: slots.map (·.1)).Nodup)
    (each : ∀ s ∈ slots, ∀ d ∈ s.2, d.IsJson double) :
    (record (given ((tag, some (.text name)) :: slots))).IsJson double := by
  refine isJson_given distinct (List.forall_mem_cons.2 ⟨?_, each⟩)
  rintro _ ⟨⟩
  exact .text name

/-! ### Depth -/

theorem depth_pos (d : Datum) : 0 < d.depth := by
  unfold depth
  split <;> omega

theorem depth_lt_list {d : Datum} {items : List Datum} (h : d ∈ items) :
    d.depth < (list items).depth := by
  suffices le : d.depth ≤ depth.depthOf items by
    rw [depth]
    omega
  induction items with
  | nil => cases h
  | cons e es ih =>
    rw [depth.depthOf]
    rcases List.mem_cons.1 h with rfl | h
    · exact Nat.le_max_left _ _
    · exact (ih h).trans (Nat.le_max_right _ _)

theorem depth_lt_record {f : String × Datum} {fields : List (String × Datum)} (h : f ∈ fields) :
    f.2.depth < (record fields).depth := by
  suffices le : f.2.depth ≤ depth.depthOfEntries (fields.map fun f => (text f.1, f.2)) by
    rw [record, depth]
    omega
  induction fields with
  | nil => cases h
  | cons g gs ih =>
    rw [List.map_cons, depth.depthOfEntries]
    rcases List.mem_cons.1 h with rfl | h
    · exact Nat.le_max_left _ _
    · exact (ih h).trans (Nat.le_max_right _ _)

theorem depth_lt_given {slots : List (String × Option Datum)} {name : String} {d : Datum}
    (h : (name, some d) ∈ slots) : d.depth < (record (given slots)).depth := by
  have mem : (name, d) ∈ given slots := mem_given.2 h
  exact depth_lt_record mem

end Datum

/-! ## Fields by position -/

theorem idxOf?_of_getElem? {names : List String} (distinct : names.Nodup) {i : ℕ} {name : String}
    (h : names[i]? = some name) : names.idxOf? name = some i := by
  obtain ⟨lt, rfl⟩ := List.getElem?_eq_some_iff.1 h
  refine List.idxOf?_eq_some_iff.2 ⟨lt, rfl, fun j hj same => ?_⟩
  exact hj.ne (distinct.getElem_inj_iff.1 same)

namespace Fields

/-- The fields from position `i` on that have a value. -/
def ofSlots : ℕ → List (String × Option Datum) → Fields
  | _, [] => []
  | i, (_, none) :: slots => ofSlots (i + 1) slots
  | i, (_, some d) :: slots => (i, d) :: ofSlots (i + 1) slots

theorem le_of_mem_ofSlots {i : ℕ} {slots : List (String × Option Datum)} {f : ℕ × Datum}
    (h : f ∈ ofSlots i slots) : i ≤ f.1 := by
  induction slots generalizing i with
  | nil => cases h
  | cons s slots ih =>
    obtain ⟨name, _ | d⟩ := s
    · exact Nat.le_of_succ_le (ih h)
    · rcases List.mem_cons.1 h with rfl | h
      · exact Nat.le_refl _
      · exact Nat.le_of_succ_le (ih h)

theorem get?_ofSlots (i j : ℕ) (slots : List (String × Option Datum)) :
    get? (ofSlots i slots) (i + j) = slots[j]?.bind (·.2) := by
  induction slots generalizing i j with
  | nil => rfl
  | cons s slots ih =>
    have later : get? (ofSlots (i + 1) slots) i = none := by
      rw [get?, List.find?_eq_none.2]
      · rfl
      · intro f hf
        have le := le_of_mem_ofSlots hf
        simp only [beq_iff_eq]
        omega
    cases j with
    | zero =>
      obtain ⟨name, _ | d⟩ := s
      · exact later
      · simp [ofSlots, get?]
    | succ j =>
      have shift : i + (j + 1) = i + 1 + j := by omega
      have next := shift ▸ ih (i + 1) j
      obtain ⟨name, _ | d⟩ := s
      · exact next
      · have ne : i ≠ i + (j + 1) := by omega
        rw [ofSlots, get?, List.find?_cons_of_neg (by simp)]
        exact next

theorem ofEntries?_given {names : List String} (distinct : names.Nodup) (before : List String)
    (slots : List (String × Option Datum)) (known : names = before ++ slots.map (·.1)) :
    ofEntries? names ((Datum.given slots).map fun f => (.text f.1, f.2)) =
      some (ofSlots before.length slots) := by
  induction slots generalizing before with
  | nil => rfl
  | cons s slots ih =>
    obtain ⟨name, d⟩ := s
    have rest := ih (before ++ [name]) (by rw [known, List.append_assoc]; rfl)
    rw [List.length_append, List.length_singleton] at rest
    cases d with
    | none => exact rest
    | some d =>
      have here : names.idxOf? name = some before.length :=
        idxOf?_of_getElem? distinct (by rw [known]; simp)
      have fresh : (ofSlots (before.length + 1) slots).any (fun f => f.1 == before.length) = false := by
        refine List.any_eq_false.2 fun f hf => ?_
        have le := le_of_mem_ofSlots hf
        simp only [beq_iff_eq]
        omega
      simp only [Datum.given, Datum.optionalField, List.cons_append, List.nil_append, List.map_cons,
        ofEntries?, index?, here, rest, bind, Option.bind, fresh]
      rfl

/-- A record is read field by field. -/
theorem ofDatum?_given {names : List String} {slots : List (String × Option Datum)}
    (known : slots.map (·.1) = names) (distinct : names.Nodup) :
    ofDatum? names (.record (Datum.given slots)) = some (ofSlots 0 slots) :=
  ofEntries?_given distinct [] slots known.symm

@[simp] theorem required_ofSlots (slots : List (String × Option Datum)) (i : ℕ)
    (f : Datum → Option β) :
    required (ofSlots 0 slots) i f = (slots[i]?.bind (·.2)).bind f := by
  rw [required, ← get?_ofSlots 0 i, Nat.zero_add]

@[simp] theorem defaulted_ofSlots (slots : List (String × Option Datum)) (i : ℕ)
    (f : Datum → Option β) (b : β) :
    defaulted (ofSlots 0 slots) i f b = (slots[i]?.bind (·.2)).elim (some b) f := by
  rw [defaulted, ← get?_ofSlots 0 i, Nat.zero_add]
  cases get? (ofSlots 0 slots) i <;> rfl

@[simp] theorem optional_ofSlots (slots : List (String × Option Datum)) (i : ℕ)
    (f : Datum → Option β) :
    optional (ofSlots 0 slots) i f = (slots[i]?.bind (·.2)).elim (some none) (Datum.option? f) := by
  rw [optional, ← get?_ofSlots 0 i, Nat.zero_add]
  cases get? (ofSlots 0 slots) i <;> rfl

end Fields

namespace Datum

/-- A field that may be left out is read as what it was written from. -/
theorem option?_comp {f : Datum → Option β} {g : β → Datum} {o : Option β}
    (read : ∀ b ∈ o, f (g b) = some b) (solid : ∀ b, g b ≠ null) :
    o.elim (some none) (option? f ∘ g) = some o := by
  cases o with
  | none => rfl
  | some b =>
    have ne := solid b
    rw [Option.elim_some, Function.comp_apply]
    unfold option?
    split
    · next h => exact absurd h ne
    · rw [read b rfl]
      rfl

@[simp] theorem option?_text (o : Option String) :
    o.elim (some none) (option? text? ∘ text) = some o := by
  cases o <;> rfl

theorem listOf?_ofList {f : Datum → Option β} {g : β → Datum} {bs : List β}
    (read : ∀ b ∈ bs, f (g b) = some b) : listOf? f (ofList g bs) = some bs := by
  change (bs.map g).mapM f = some bs
  induction bs with
  | nil => rfl
  | cons b bs ih =>
    obtain ⟨here, rest⟩ := List.forall_mem_cons.1 read
    rw [List.map_cons, List.mapM_cons, here, ih rest]
    rfl

/-! ## Unions -/

/-- A value and its name stand in the same place. -/
theorem exists_place {values : List β} {name : β → String} (distinct : (values.map name).Nodup)
    {b : β} (mem : b ∈ values) :
    ∃ i, values[i]? = some b ∧ (values.map name).idxOf? (name b) = some i := by
  obtain ⟨i, h⟩ := List.getElem?_of_mem mem
  exact ⟨i, h, idxOf?_of_getElem? distinct (by rw [List.getElem?_map, h]; rfl)⟩

theorem oneOf?_text {mode : Mode} {values : List β} {name : β → String}
    (distinct : (values.map name).Nodup) {b : β} (mem : b ∈ values) :
    oneOf? mode values name (.text (name b)) = some b := by
  obtain ⟨i, value, index⟩ := exists_place distinct mem
  rw [oneOf?, plainVariant?, index]
  exact value

theorem areReadable_iff {ds : List Datum} : areReadable ds ↔ ∀ d ∈ ds, d.isReadable := by
  induction ds with
  | nil => simp [areReadable]
  | cons d ds ih => rw [areReadable, Bool.and_eq_true, ih, List.forall_mem_cons]

theorem isReadable_record {fields : List (String × Datum)} :
    (record fields).isReadable ↔ ∀ f ∈ fields, f.2.isReadable := by
  change entriesReadable (fields.map fun f => (text f.1, f.2)) ↔ _
  induction fields with
  | nil => simp [entriesReadable]
  | cons f fields ih =>
    rw [List.map_cons, entriesReadable, Bool.and_eq_true, ih, List.forall_mem_cons]
    exact and_congr_left fun _ => by simp [isReadable]

theorem IsJson.isReadable {double : Float → Prop} {d : Datum} (json : d.IsJson double) :
    d.isReadable := by
  induction json with
  | list _ ih => exact areReadable_iff.2 ih
  | record _ _ ih => exact isReadable_record.2 ih
  | _ => rfl

/-- A union is read by its tag. -/
theorem tagged?_record {mode : Mode} {tag name : String} {names : List String} {i : ℕ}
    {fields : List (String × Datum)} (index : names.idxOf? name = some i)
    (other : ∀ f ∈ fields, f.1 ≠ tag) (readable : (record fields).isReadable) :
    tagged? mode tag names (record ((tag, .text name) :: fields)) = some (i, record fields) := by
  have readable' : (record ((tag, .text name) :: fields)).isReadable :=
    isReadable_record.2 (List.forall_mem_cons.2 ⟨rfl, isReadable_record.1 readable⟩)
  have untagged : ∀ e ∈ fields.map (fun f => (text f.1, f.2)), isTag tag e = false := by
    intro e he
    obtain ⟨f, hf, rfl⟩ := List.mem_map.1 he
    simpa [isTag] using other f hf
  have tagged : isTag tag (text tag, text name) = true := by simp [isTag]
  have tags : (((tag, text name) :: fields).map fun f => (text f.1, f.2)).filter (isTag tag) =
      [(text tag, text name)] := by
    rw [List.map_cons, List.filter_cons_of_pos tagged,
      List.filter_eq_nil_iff.2 fun e he => by simp [untagged e he]]
  have body : (((tag, text name) :: fields).map fun f => (text f.1, f.2)).filter
      (fun e => !isTag tag e) = fields.map fun f => (text f.1, f.2) := by
    rw [List.map_cons, List.filter_cons_of_neg (by simp [tagged]),
      List.filter_eq_self.2 fun e he => by simp [untagged e he]]
  unfold tagged? record
  rw [if_neg (by rw [← record, readable']; simp)]
  simp only [tags, body, variant?, index]
  rfl

theorem tagged?_given {mode : Mode} {tag name : String} {names : List String} {i : ℕ}
    {slots : List (String × Option Datum)} (index : names.idxOf? name = some i)
    (distinct : (tag :: slots.map (·.1)).Nodup)
    (each : ∀ s ∈ slots, ∀ d ∈ s.2, d.IsJson fun _ => True) :
    tagged? mode tag names (record (given ((tag, some (.text name)) :: slots))) =
      some (i, record (given slots)) := by
  obtain ⟨other, distinct⟩ := List.nodup_cons.1 distinct
  refine tagged?_record index (fun f hf is => other ?_) (isJson_given distinct each).isReadable
  rw [← is]
  exact (given_names_sublist slots).subset (List.mem_map_of_mem hf)

end Datum
end PaneLayout
