import Mathlib.Data.List.Basic
import PaneLayout.Proofs.Sections

set_option autoImplicit false

/-!
# When a plan is made, and what is in it

A layout has a plan exactly if it is valid and the table of every new pane has a reference. What the
plan holds is said here in terms of the panes alone: pane for pane, in their order.
-/

namespace PaneLayout

/-- How a pane is referred to that follows `k` new ones. -/
def Pane.refAfter (k : Nat) (p : Pane) : PaneRef :=
  match p.section? with
  | some id => .real id
  | none => .placeholder ⟨UInt32.ofNat (k + 1)⟩

def PaneRef.placeholder? : PaneRef → Option PlaceholderId
  | real _ => none
  | placeholder p => some p

namespace Layout

variable {α : Type}

def newBefore (t : Layout α) (i : Nat) : Nat := Pane.newCount (t.panes.take i)

/-- How the pane at index `i` is referred to. -/
def refAt (t : Layout α) (i : Nat) (p : Pane) : PaneRef := p.refAfter (t.newBefore i)

/-- The creation that the pane at index `i` asks for. -/
def creationAt (t : Layout α) (tables : TableMap) (i : Nat) : Pane → Option Creation
  | .new name type _ => (tables.get? name).map fun table =>
    ⟨i, ⟨UInt32.ofNat (t.newBefore i + 1)⟩, table, type⟩
  | _ => none

/-- The placeholders of the new panes. -/
def placeholders (t : Layout α) : List PlaceholderId :=
  (List.range' 1 t.newPanes.length).map fun n => ⟨UInt32.ofNat n⟩

end Layout

/-- The lists of a plan, and the leaves of its page, run along the panes. -/
structure Plan.Follows {α : Type} (plan : Plan α) (tables : TableMap) (t : Layout α) : Prop where
  panes : plan.panes = t.panes.mapIdx fun i p =>
    ⟨i, t.refAt i p, p.table?.bind tables.get?, p.label, p.title, p.description⟩
  leaves : plan.layout.leaves = t.panes.mapIdx t.refAt
  /-- One creation for each new pane. -/
  creations : plan.creations.map some =
    (t.panes.zipIdx.filter (·.1.isNew)).map fun x => t.creationAt tables x.2 x.1
  /-- One link for each pane that has one. -/
  links : plan.links = t.panes.zipIdx.filterMap fun x =>
    x.1.link.map fun l => ⟨x.2, t.refAt x.2 x.1, l.source, l⟩
  placed : plan.layout.leaves.filterMap PaneRef.placeholder? = t.placeholders
  created : plan.creations.map (·.placeholder) = t.placeholders

/-! ## Slots -/

namespace Slot

variable {tables : TableMap}

theorem number_eq (i n : Nat) (ps : List Pane) : number tables i (UInt32.ofNat n) ps =
    ps.mapIdx fun j p =>
      ⟨i + j, p.refAfter (n + Pane.newCount (ps.take j)), p.table?.bind tables.get?, p⟩ := by
  induction ps generalizing i n with
  | nil => rfl
  | cons p ps ih =>
    rw [List.mapIdx_cons, number]
    cases hp : p.section? with
    | some id =>
      simp only [ih, List.take_succ_cons, Pane.newCount_cons_real hp, Nat.add_right_comm i 1,
        Nat.add_assoc]
      rw [Pane.refAfter, hp]
      rfl
    | none =>
      have next : UInt32.ofNat n + 1 = UInt32.ofNat (n + 1) := (UInt32.ofNat_add n 1).symm
      simp only [next, ih, List.take_succ_cons, Pane.newCount_cons_new hp, Nat.add_assoc,
        Nat.add_comm 1]
      rw [Pane.refAfter, hp]
      rfl

/-- The placeholders among the references are those of the new panes. -/
theorem number_refs (i : Nat) (k : UInt32) {ps : List Pane}
    (mapped : ∀ p ∈ ps, ∀ name, p.table? = some name → (tables.get? name).isSome) :
    (number tables i k ps).filterMap (·.ref.placeholder?) = placeholders (number tables i k ps) := by
  induction ps generalizing i k with
  | nil => rfl
  | cons p ps ih =>
    obtain ⟨mp, mps⟩ := List.forall_mem_cons.1 mapped
    cases hp : p.section? with
    | some id =>
      rw [placeholders_cons_real i k hp, ← ih _ _ mps, number, hp]
      exact List.filterMap_cons_none rfl
    | none =>
      rw [placeholders_cons_new i k hp mp, ← ih _ _ mps, number, hp]
      exact List.filterMap_cons_some rfl

theorem links_eq (s : Slot) :
    s.links = (s.pane.link.map fun l => (⟨s.index, s.ref, l.source, l⟩ : PendingLink)).toList := by
  unfold links Draft.linkOf
  cases s.pane.link <;> rfl

end Slot

namespace Layout

variable {α : Type} {tables : TableMap}

theorem slots_eq (t : Layout α) : t.slots tables = t.panes.zipIdx.map fun x =>
    ⟨x.2, t.refAt x.2 x.1, x.1.table?.bind tables.get?, x.1⟩ := by
  have numbered : Slot.number tables 0 (UInt32.ofNat 0) t.panes = _ := Slot.number_eq 0 0 t.panes
  simp only [Nat.zero_add] at numbered
  exact numbered.trans List.mapIdx_eq_zipIdx_map

theorem creationAt_isSome {t : Layout α} {i : Nat} {p : Pane} (mapped : p.isMapped tables = true) :
    (t.creationAt tables i p).isSome = p.isNew := by
  cases p with
  | new name type info =>
    rw [creationAt, Option.isSome_map]
    exact (Pane.isMapped_iff _).1 mapped name rfl
  | leaf id => rfl
  | existing id info => rfl

theorem creations_slot (t : Layout α) (i : Nat) (p : Pane) :
    Slot.creations ⟨i, t.refAt i p, p.table?.bind tables.get?, p⟩ =
      (t.creationAt tables i p).toList := by
  cases p with
  | new name type info =>
    change Draft.creationOf i (.placeholder _) (tables.get? name) _ = _
    rw [creationAt]
    cases tables.get? name <;> rfl
  | leaf id => rfl
  | existing id info => rfl

/-- Where exactly the elements that pass the test have a value, none is passed over. -/
theorem map_some_filterMap {β γ : Type} {f : β → Option γ} {test : β → Bool} {xs : List β}
    (same : ∀ x ∈ xs, (f x).isSome = test x) :
    (xs.filterMap f).map some = (xs.filter test).map f := by
  induction xs with
  | nil => rfl
  | cons x xs ih =>
    obtain ⟨here, rest⟩ := List.forall_mem_cons.1 same
    rw [List.filter_cons, ← here]
    cases hx : f x with
    | none => exact (congrArg (List.map some) (List.filterMap_cons_none hx)).trans (ih rest)
    | some c =>
      rw [List.filterMap_cons_some hx, List.map_cons, ih rest, ← hx, if_pos (by rw [hx]; rfl)]
      rfl

theorem slots_creations (t : Layout α) : (t.slots tables).flatMap (·.creations) =
    t.panes.zipIdx.filterMap fun x => t.creationAt tables x.2 x.1 := by
  rw [slots_eq, List.flatMap_map, List.filterMap_eq_flatMap_toList]
  exact congrArg (t.panes.zipIdx.flatMap ·) (funext fun x => t.creations_slot x.2 x.1)

theorem slots_links (t : Layout α) : (t.slots tables).flatMap (·.links) =
    t.panes.zipIdx.filterMap fun x =>
      x.1.link.map fun l => ⟨x.2, t.refAt x.2 x.1, l.source, l⟩ := by
  rw [slots_eq, List.flatMap_map, List.filterMap_eq_flatMap_toList]
  exact congrArg (t.panes.zipIdx.flatMap ·) (funext fun x => Slot.links_eq _)

theorem slots_placeholders (t : Layout α)
    (mapped : ∀ p ∈ t.panes, ∀ name, p.table? = some name → (tables.get? name).isSome) :
    Slot.placeholders (t.slots tables) = t.placeholders := by
  rw [slots, Slot.number_placeholders 0 0 mapped, placeholders, List.range'_eq_map_range,
    List.map_map]
  refine List.map_congr_left fun j _ => ?_
  simp [Nat.add_comm]

/-- As long as there are as many numbers the placeholders are `1`, `2` and so on. -/
theorem placeholders_toNat {t : Layout α} (few : t.newPanes.length < UInt32.size) :
    t.placeholders.map (·.toNat) = List.range' 1 t.newPanes.length := by
  rw [placeholders, List.map_map]
  refine (List.map_congr_left fun n hn => ?_).trans (List.map_id _)
  rw [List.mem_range'_1] at hn
  exact UInt32.toNat_ofNat_of_lt' (by omega)

end Layout

namespace Plan

variable {α : Type} [Scalar α] {tables : TableMap} {t : Layout α}

theorem Draws.follows {plan : Plan α} (h : plan.Draws tables t) : plan.Follows tables t where
  panes := by
    rw [h.panes, t.slots_eq, List.map_map, List.mapIdx_eq_zipIdx_map]
    rfl
  leaves := by
    rw [h.leaves, t.slots_eq, List.map_map, List.mapIdx_eq_zipIdx_map]
    rfl
  creations := by
    rw [h.creations, t.slots_creations]
    refine Layout.map_some_filterMap fun x hx => Layout.creationAt_isSome ?_
    exact x.1.isMapped_iff.2 (h.mapped x.1 (List.fst_mem_of_mem_zipIdx hx))
  links := by rw [h.links, t.slots_links]
  placed := by
    rw [h.leaves, List.filterMap_map, ← t.slots_placeholders h.mapped]
    exact Slot.number_refs 0 0 h.mapped
  created := by rw [h.placeholders_eq, t.slots_placeholders h.mapped]

omit [Scalar α] in
theorem Follows.creation_of_new {plan : Plan α} (h : plan.Follows tables t) {i : Nat}
    {name : String} {type : WidgetType} {info : PaneInfo}
    (hp : t.panes[i]? = some (.new name type info)) :
    ∃ c ∈ plan.creations, c.paneIndex = i ∧ tables.get? name = some c.table := by
  have asked : t.creationAt tables i (.new name type info) ∈ plan.creations.map some := by
    rw [h.creations]
    exact List.mem_map.2 ⟨(.new name type info, i),
      List.mem_filter.2 ⟨List.mem_zipIdx_iff_getElem?.2 hp, rfl⟩, rfl⟩
  obtain ⟨c, hc, made⟩ := List.mem_map.1 asked
  obtain ⟨table, mapped, rfl⟩ := Option.map_eq_some_iff.1 made.symm
  exact ⟨_, hc, rfl, mapped⟩

/-- A valid layout has a plan exactly if every new pane has a table that is mapped. If not, the
first one that has none is named. -/
theorem make_iff (t : Layout α) (tables : TableMap) :
    ((∃ plan, make (some t) tables = .ok plan) ↔
      Layout.validate (some t) = [] ∧ ∀ p ∈ t.panes, p.isMapped tables = true) ∧
    (∀ p name, Layout.validate (some t) = [] →
      t.panes.find? (fun p => !p.isMapped tables) = some p → p.table? = some name →
      make (some t) tables = .error (.unknownTable name p.label tables.keys)) ∧
    (∀ plan, make (some t) tables = .ok plan → plan.Follows tables t) ∧
    (t.newPanes.length < UInt32.size →
      t.placeholders.map (·.toNat) = List.range' 1 t.newPanes.length) := by
  refine ⟨⟨?_, ?_⟩, ?_, ?_, Layout.placeholders_toNat⟩
  · rintro ⟨plan, made⟩
    obtain ⟨t', same, valid, draws⟩ := make_ok made
    obtain rfl := Option.some.inj same
    exact ⟨valid, fun p hp => p.isMapped_iff.2 (draws.mapped p hp)⟩
  · rintro ⟨valid, mapped⟩
    obtain ⟨plan, made, -⟩ :=
      make_total valid fun p hp => p.isMapped_iff.1 (mapped p hp)
    exact ⟨plan, made⟩
  · intro p name valid first named
    simp only [make, valid, List.isEmpty_nil, if_true]
    rcases ofLayout_cases tables (branching_of_validate valid) with
      ⟨plan, -, draws⟩ | ⟨q, first', name', named', -, refused⟩
    · have unmapped := List.find?_some first
      rw [p.isMapped_iff.2 (draws.mapped p (List.mem_of_find?_eq_some first))] at unmapped
      cases unmapped
    · obtain rfl := Option.some.inj (first.symm.trans first')
      obtain rfl := Option.some.inj (named.symm.trans named')
      exact refused
  · intro plan made
    obtain ⟨t', same, -, draws⟩ := make_ok made
    obtain rfl := Option.some.inj same
    exact draws.follows

end Plan
end PaneLayout
