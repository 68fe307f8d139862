import PaneLayout.Document.Fixture
import PaneLayout.Proofs.Applied
import PaneLayout.Proofs.Growth

set_option autoImplicit false

/-!
# Documents that can come about

The documents that are built from the empty one and worked on through its calls. On all of them the
numbers of the last section and the last page are as great as those of any widget and any page, so
the next ones are new.
-/

namespace PaneLayout.Document

variable {α : Type}

/-- Nothing but the calls and builders touches a document. -/
inductive Reachable : Document α → Prop
  | empty : Reachable .empty
  | addTable {d : Document α} (name : String) (columns : List (String × String))
    (summaryOf : Option TableRef) : Reachable d → Reachable (d.addTable name columns summaryOf)
  | addWidget {d : Document α} (view : ViewRef) (w : WidgetInfo) :
    Reachable d → Reachable (d.addWidget view w)
  | setPage {d : Document α} (view : ViewRef) (layout : Option (Native α SectionId)) :
    Reachable d → Reachable (d.setPage view layout)
  | failCreateAt {d : Document α} (n : Option Nat) :
    Reachable d → Reachable { d with failCreateAt := n }
  | rejectMutationAt {d : Document α} (n : Option Nat) :
    Reachable d → Reachable { d with rejectMutationAt := n }
  | createWidget {d : Document α} (table : TableRef) (type : WidgetType) (view : Option ViewRef) :
    Reachable d → Reachable (createWidget table type view d).2
  | applyMutations {d : Document α} (ms : List (Mutation α)) :
    Reachable d → Reachable (applyMutations ms d).2
  | listColumns {d : Document α} (t : TableRef) :
    Reachable d → Reachable (client.listColumns t d).2

/-! ## Fixtures -/

/-- What every step keeps holds after all of them. -/
theorem foldlM_keeps {β : Type} {f : Document α → β → Except FixtureError (Document α)}
    {P : Document α → Prop} {xs : List β} (step : ∀ d, ∀ x ∈ xs, ∀ e, P d → f d x = .ok e → P e)
    {d e : Document α} (h : P d) (run : xs.foldlM f d = .ok e) : P e := by
  induction xs generalizing d with
  | nil =>
    obtain rfl := Except.ok.inj run
    exact h
  | cons x xs ih =>
    rw [List.foldlM_cons, bind_ok_iff] at run
    obtain ⟨d₁, here, rest⟩ := run
    exact ih (fun d y hy => step d y (List.mem_cons_of_mem x hy))
      (step d x List.mem_cons_self d₁ h here) rest

/-- A table that is added summarises one that is there, if it names one. -/
theorem addTableFixture_ok {d e : Document α} {t : TableFixture}
    (run : d.addTableFixture t = .ok e) :
    (∀ source, t.summaryOf = some source → (d.tableRef? source).isSome) ∧
    e = d.addTable t.name (t.columns.map fun c => (c.id, c.type))
      (t.summaryOf.bind d.tableRef?) := by
  unfold addTableFixture at run
  dsimp only at run
  split at run
  · next plain =>
    rw [plain]
    exact ⟨nofun, (Except.ok.inj run).symm⟩
  · next source summary =>
    rw [summary]
    split at run
    · next ref found =>
      refine ⟨fun _ named => ?_, ?_⟩
      · obtain rfl := Option.some.inj named
        rw [found]
        rfl
      · rw [Option.bind_some, found]
        exact (Except.ok.inj run).symm
    · cases run

theorem addWidgetFixture_ok {d e : Document α} {view : ViewRef} {w : WidgetInfo}
    (run : d.addWidgetFixture view w = .ok e) :
    d.tables.contains w.table = true ∧ e = d.addWidget view w := by
  unfold addWidgetFixture at run
  split at run
  · next there => exact ⟨there, (Except.ok.inj run).symm⟩
  · cases run

/-- What holds with a page opened, and is kept by putting the widgets on it, holds once it is
added. -/
theorem addPageFixture_keeps {P : Document α → Prop} {p : PageFixture α} {d e : Document α}
    (page : P (d.setPage p.view p.layout))
    (widget : ∀ d, ∀ w ∈ p.widgets, P d → d.tables.contains w.table = true →
      P (d.addWidget p.view w))
    (run : d.addPageFixture p = .ok e) : P e := by
  refine foldlM_keeps ?_ page run
  intro d w hw e h run
  obtain ⟨there, rfl⟩ := addWidgetFixture_ok run
  exact widget d w hw h there

theorem ofFixture_ok {f : DocumentFixture α} {d : Document α} (built : ofFixture f = .ok d) :
    ∃ c, f.tables.foldlM addTableFixture empty = .ok c ∧ f.pages.foldlM addPageFixture c = .ok d :=
  bind_ok_iff.1 built

/-- What every builder keeps holds of what a fixture describes. -/
theorem ofFixture_keeps {P : Document α → Prop} {f : DocumentFixture α} {d : Document α}
    (start : P empty)
    (table : ∀ d name columns summaryOf, P d → P (d.addTable name columns summaryOf))
    (page : ∀ d view layout, P d → P (d.setPage view layout))
    (widget : ∀ d view w, P d → P (d.addWidget view w)) (built : ofFixture f = .ok d) : P d := by
  obtain ⟨c, tables, pages⟩ := ofFixture_ok built
  have listed : P c := by
    refine foldlM_keeps ?_ start tables
    intro d t _ e h run
    obtain ⟨-, rfl⟩ := addTableFixture_ok run
    exact table d _ _ _ h
  refine foldlM_keeps ?_ listed pages
  intro d p _ e h run
  exact addPageFixture_keeps (page d p.view p.layout h) (fun d w _ h _ => widget d p.view w h) run

/-- Every document that a fixture describes can come about. -/
theorem reachable_of_fixture {f : DocumentFixture α} {d : Document α}
    (run : ofFixture f = .ok d) : d.Reachable :=
  ofFixture_keeps .empty (fun _ name columns summaryOf h => .addTable name columns summaryOf h)
    (fun _ view layout h => .setPage view layout h) (fun _ view w h => .addWidget view w h) run

/-! ## Numbers -/

theorem toNat_max (a b : UInt32) : (max a b).toNat = max a.toNat b.toNat := by
  change (if a ≤ b then b else a).toNat = _
  split
  · next le => exact (Nat.max_eq_right (UInt32.le_iff_toNat_le.1 le)).symm
  · next gt =>
    rw [UInt32.le_iff_toNat_le] at gt
    omega

/-- No widget has a number beyond the last one. -/
def Numbered (d : Document α) : Prop :=
  ∀ id, d.widgets.contains id = true → id.toNat ≤ d.lastSection.toNat

theorem Numbered.addWidget {d : Document α} (h : d.Numbered) (view : ViewRef) (w : WidgetInfo) :
    (d.addWidget view w).Numbered := by
  intro id hid
  change (d.widgets.insert w.id w).contains id = true at hid
  change id.toNat ≤ (max d.lastSection w.id.raw).toNat
  rw [SortedMap.contains_insert, Bool.or_eq_true, decide_eq_true_eq] at hid
  rw [toNat_max]
  rcases hid with rfl | hid
  · exact Nat.le_max_right _ _
  · exact Nat.le_trans (h id hid) (Nat.le_max_left _ _)

theorem numbered_of_applied {d e : Document α} {ms : List (Mutation α)} (h : d.Numbered)
    (applied : d.Applied ms e) : e.Numbered := by
  intro id hid
  rw [applied.contains_iff] at hid
  rw [applied.last]
  exact h id hid

theorem numbered_of_placed {d : Document α} (h : d.Numbered) {view : Option ViewRef}
    {c : Creation} (can : d.Creatable view c) : (d.placed view c).2.Numbered := by
  have next := toNat_succ can.room
  rw [placed_snd]
  intro id hid
  rw [SortedMap.contains_insert, Bool.or_eq_true, decide_eq_true_eq] at hid
  change id.toNat ≤ (d.lastSection + 1).toNat
  rw [next]
  rcases hid with rfl | hid
  · exact Nat.le_of_eq next
  · exact Nat.le_succ_of_le (h id hid)

theorem Grown.numbered {d e : Document α} {view : Option ViewRef} {cs : List Creation}
    (g : d.Grown view cs e) (numbered : d.Numbered)
    (room : d.lastSection.toNat + cs.length < UInt32.size) : e.Numbered := by
  intro id hid
  rw [g.toNat_last room]
  rcases (g.contains_iff id).1 hid with there | given
  · exact Nat.le_trans (numbered id there) (Nat.le_add_right _ _)
  · have mem := List.mem_map_of_mem (f := fun i : SectionId => i.toNat) given
    rw [nextSections_toNat room, List.mem_range'_1] at mem
    omega

theorem Reachable.numbered {d : Document α} (h : d.Reachable) : d.Numbered := by
  induction h with
  | empty => intro id hid; cases hid
  | addTable name columns summaryOf _ ih => exact ih
  | addWidget view w _ ih => exact ih.addWidget view w
  | setPage view layout _ ih => exact ih
  | failCreateAt n _ ih => exact ih
  | rejectMutationAt n _ ih => exact ih
  | createWidget table type view _ ih =>
    rename_i d _
    rcases d.createWidget_snd table type view with ⟨spent, refused⟩ | ⟨can, made⟩
    · rw [refused]
      exact ih
    · rw [made]
      exact numbered_of_placed ih can
  | applyMutations ms _ ih =>
    rename_i d _
    obtain ⟨ns, -, applied⟩ := d.exists_applied ms
    exact numbered_of_applied (d := d.bundling) ih applied
  | listColumns t _ ih => exact ih

/-! ## Pages -/

/-- No page has a number beyond the last one. -/
def Paged (d : Document α) : Prop :=
  ∀ view, d.pages.contains view = true → view.toNat ≤ d.lastView.toNat

theorem Paged.setPage {d : Document α} (h : d.Paged) (view : ViewRef)
    (layout : Option (Native α SectionId)) : (d.setPage view layout).Paged := by
  intro v hv
  change (d.pages.insert view layout).contains v = true at hv
  change v.toNat ≤ (max d.lastView view.raw).toNat
  rw [SortedMap.contains_insert, Bool.or_eq_true, decide_eq_true_eq] at hv
  rw [toNat_max]
  rcases hv with rfl | hv
  · exact Nat.le_max_right _ _
  · exact Nat.le_trans (h v hv) (Nat.le_max_left _ _)

theorem Paged.addWidget {d : Document α} (h : d.Paged) (view : ViewRef) (w : WidgetInfo) :
    (d.addWidget view w).Paged := by
  intro v hv
  change (d.pages.insertNew view none).contains v = true at hv
  change v.toNat ≤ (max d.lastView view.raw).toNat
  rw [SortedMap.contains_insertNew] at hv
  rw [toNat_max]
  rcases hv with rfl | hv
  · exact Nat.le_max_right _ _
  · exact Nat.le_trans (h v hv) (Nat.le_max_left _ _)

theorem paged_of_placed {d : Document α} (h : d.Paged) {view : Option ViewRef} {c : Creation}
    (can : d.Creatable view c) : (d.placed view c).2.Paged := by
  rw [placed_snd]
  intro v hv
  change v.toNat ≤ (max _ (d.home view).raw).toNat
  rw [toNat_max]
  rcases contains_shown.1 hv with rfl | there
  · exact Nat.le_max_right _ _
  · refine Nat.le_trans (Nat.le_trans (h v there) ?_) (Nat.le_max_left _ _)
    cases view with
    | some v => exact Nat.le_refl _
    | none =>
      change d.lastView.toNat ≤ (d.lastView + 1).toNat
      rw [toNat_succ (can.pageRoom rfl)]
      exact Nat.le_succ _

theorem Paged.applyOne {d e : Document α} (h : d.Paged) {m : Mutation α}
    (run : d.applyOne m = .ok e) : e.Paged := by
  rcases d.applyOne_cases m with ⟨taken, e', run', applied⟩ | ⟨-, reason, refused⟩
  · obtain rfl := Except.ok.inj (run'.symm.trans run)
    intro v hv
    rw [applied.lastView]
    exact h v ((contains_pages_iff taken applied v).1 hv)
  · cases refused.symm.trans run

theorem Reachable.paged {d : Document α} (h : d.Reachable) : d.Paged := by
  induction h with
  | empty => intro view hv; cases hv
  | addTable name columns summaryOf _ ih => exact ih
  | addWidget view w _ ih => exact ih.addWidget view w
  | setPage view layout _ ih => exact ih.setPage view layout
  | failCreateAt n _ ih => exact ih
  | rejectMutationAt n _ ih => exact ih
  | createWidget table type view _ ih =>
    rename_i d _
    rcases d.createWidget_snd table type view with ⟨spent, refused⟩ | ⟨can, made⟩
    · rw [refused]
      exact ih
    · rw [made]
      exact paged_of_placed ih can
  | applyMutations ms _ ih =>
    rename_i d _
    have start : d.bundling.Paged := ih
    exact applyFrom_keeps (fun h run => h.applyOne run) start d.rejectMutationAt 0 ms
  | listColumns t _ ih => exact ih

/-! ## Places -/

/-- The sections with a place are the widgets. -/
def Placed (d : Document α) : Prop :=
  ∀ id, d.widgetViews.contains id = d.widgets.contains id

theorem placed_of_applied {d e : Document α} {ms : List (Mutation α)} (h : d.Placed)
    (applied : d.Applied ms e) : e.Placed := by
  intro id
  rw [applied.views, applied.contains_iff]
  exact h id

theorem Reachable.placed {d : Document α} (h : d.Reachable) : d.Placed := by
  induction h with
  | empty => exact fun id => rfl
  | addTable name columns summaryOf _ ih => exact ih
  | addWidget view w _ ih =>
    intro id
    change (SortedMap.insert _ w.id view).contains id = (SortedMap.insert _ w.id w).contains id
    rw [SortedMap.contains_insert, SortedMap.contains_insert, ih id]
  | setPage view layout _ ih => exact ih
  | failCreateAt n _ ih => exact ih
  | rejectMutationAt n _ ih => exact ih
  | createWidget table type view _ ih =>
    rename_i d _
    rcases d.createWidget_snd table type view with ⟨spent, refused⟩ | ⟨-, made⟩
    · rw [refused]
      exact ih
    · intro id
      rw [made, placed_snd, SortedMap.contains_insert, SortedMap.contains_insert, ih id]
  | applyMutations ms _ ih =>
    rename_i d _
    obtain ⟨ns, -, applied⟩ := d.exists_applied ms
    exact placed_of_applied (d := d.bundling) ih applied
  | listColumns t _ ih => exact ih

/-! ## New numbers -/

/-- The next sections of a document that has room for them are new. -/
theorem Numbered.nextSections_new {d : Document α} (h : d.Numbered) {n : Nat}
    (room : d.lastSection.toNat + n < UInt32.size) {id : SectionId} (hid : id ∈ d.nextSections n) :
    d.widget? id = none := by
  cases hw : d.widget? id with
  | none => rfl
  | some w =>
    have le := h id (Option.isSome_iff_exists.2 ⟨w, hw⟩)
    have lt := lt_of_mem_nextSections room hid
    omega

theorem Numbered.widget?_next {d : Document α} (h : d.Numbered)
    (room : d.lastSection.toNat + 1 < UInt32.size) : d.widget? ⟨d.lastSection + 1⟩ = none :=
  h.nextSections_new (n := 1) room List.mem_cons_self

theorem Reachable.nextSections_new {d : Document α} (h : d.Reachable) {n : Nat}
    (room : d.lastSection.toNat + n < UInt32.size) {id : SectionId} (hid : id ∈ d.nextSections n) :
    d.widget? id = none := h.numbered.nextSections_new room hid

end PaneLayout.Document
