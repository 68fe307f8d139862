import PaneLayout.Layout.Validate

set_option autoImplicit false

/-!
# What valid layouts have in common

A layout without violations: its sections are distinct and not zero, its splits are in order, and
so is every pane with its link. Each part of the report is empty for a reason of its own.
-/

namespace PaneLayout.Layout

variable {α : Type} [Scalar α]

theorem sectionViolations_eq_nil_iff (seen : List SectionId) (ps : List Pane) :
    sectionViolations seen ps = [] ↔ (ps.filterMap Pane.section?).Nodup ∧
      ∀ id ∈ ps.filterMap Pane.section?, id.isValid = true ∧ id ∉ seen := by
  induction ps generalizing seen with
  | nil => simp [sectionViolations]
  | cons p ps ih =>
    rw [sectionViolations]
    cases hp : p.section? with
    | none =>
      rw [List.filterMap_cons_none hp]
      exact ih seen
    | some id =>
      rw [List.filterMap_cons_some hp, List.nodup_cons, List.forall_mem_cons]
      dsimp only
      by_cases invalid : (!id.isValid) = true
      · rw [if_pos invalid]
        simp only [List.cons_ne_nil, false_iff]
        rintro ⟨-, ⟨valid, -⟩, -⟩
        simp [valid] at invalid
      · rw [if_neg invalid]
        by_cases dup : seen.contains id = true
        · rw [if_pos dup]
          simp only [List.cons_ne_nil, false_iff]
          rintro ⟨-, ⟨-, unseen⟩, -⟩
          exact unseen (List.contains_iff_mem.1 dup)
        · rw [if_neg dup, ih]
          have valid : id.isValid = true := by simpa using invalid
          have unseen : id ∉ seen := fun h => dup (List.contains_iff_mem.2 h)
          simp only [List.mem_cons, not_or]
          constructor
          · rintro ⟨distinct, all⟩
            refine ⟨⟨fun again => (all id again).2.1 rfl, distinct⟩, ⟨valid, unseen⟩, ?_⟩
            intro i hi
            exact ⟨(all i hi).1, (all i hi).2.2⟩
          · rintro ⟨⟨once, distinct⟩, -, all⟩
            refine ⟨distinct, fun i hi => ⟨(all i hi).1, ?_, (all i hi).2⟩⟩
            rintro rfl
            exact once hi

theorem paneViolationsFrom_eq_nil_iff (names : NameIndex) (k : Nat) (ps : List Pane) :
    paneViolationsFrom names k ps = [] ↔
      ∀ i p, ps[i]? = some p → paneViolations names (k + i) p = [] := by
  induction ps generalizing k with
  | nil => simp [paneViolationsFrom]
  | cons p ps ih =>
    rw [paneViolationsFrom, List.append_eq_nil_iff, ih]
    constructor
    · rintro ⟨first, rest⟩ i q hq
      cases i with
      | zero =>
        obtain rfl := Option.some.inj hq
        exact first
      | succ i =>
        have later := rest i q hq
        rwa [Nat.add_assoc, Nat.add_comm 1 i] at later
    · intro all
      refine ⟨all 0 p rfl, fun i q hq => ?_⟩
      have later := all (i + 1) q hq
      rwa [Nat.add_comm i 1, ← Nat.add_assoc] at later

/-- A layout is valid exactly if each part of its report is empty. -/
theorem validate_eq_nil_iff (t : Layout α) : validate (some t) = [] ↔
    sectionViolations [] t.panes = [] ∧ splitViolations t = [] ∧
      ∀ i p, t.panes[i]? = some p → paneViolations (.ofLayout t) i p = [] := by
  simp only [validate, violations?, List.map_eq_nil_iff, violations, List.append_eq_nil_iff,
    paneViolationsFrom_eq_nil_iff, Nat.zero_add, and_assoc]

section
variable {t : Layout α} (valid : validate (some t) = [])
include valid

theorem sections_nodup : (t.panes.filterMap Pane.section?).Nodup :=
  ((sectionViolations_eq_nil_iff [] t.panes).1 ((validate_eq_nil_iff t).1 valid).1).1

theorem section_valid {p : Pane} (hp : p ∈ t.panes) {id : SectionId} (hid : p.section? = some id) :
    id.isValid = true :=
  (((sectionViolations_eq_nil_iff [] t.panes).1 ((validate_eq_nil_iff t).1 valid).1).2 id
    (List.mem_filterMap.2 ⟨p, hp, hid⟩)).1

theorem linkViolations_eq_nil {i : Nat} {p : Pane} (hp : t.panes[i]? = some p) {l : Link}
    (hl : p.link = some l) : linkViolations (.ofLayout t) i p l = [] := by
  have pane := ((validate_eq_nil_iff t).1 valid).2.2 i p hp
  rw [paneViolations, hl, List.append_eq_nil_iff] at pane
  exact pane.2

theorem targetViolations_eq_nil {i : Nat} {p : Pane} (hp : t.panes[i]? = some p) {l : Link}
    (hl : p.link = some l) : targetViolations (.ofLayout t) i p l = [] := by
  have link := linkViolations_eq_nil valid hp hl
  rw [linkViolations, List.append_eq_nil_iff] at link
  exact link.2

theorem name_ne_self {i j : Nat} {p : Pane} (hp : t.panes[i]? = some p) {l : Link}
    (hl : p.link = some l) {key : String} (hk : l.source = .name key)
    (hj : (NameIndex.ofLayout t).resolve key = .unique j) : j ≠ i := by
  have target := targetViolations_eq_nil valid hp hl
  rintro rfl
  simp [targetViolations, hk, hj] at target

theorem id_ne_self {i : Nat} {p : Pane} (hp : t.panes[i]? = some p) {l : Link}
    (hl : p.link = some l) {n : SectionId} (hn : l.source = .id n) :
    n.isValid = true ∧ p.section? ≠ some n := by
  have target := targetViolations_eq_nil valid hp hl
  rw [targetViolations, hn] at target
  dsimp only at target
  split at target
  · cases target
  · next valid =>
    split at target
    · cases target
    · next ne => exact ⟨by simpa using valid, ne⟩

end

end PaneLayout.Layout
