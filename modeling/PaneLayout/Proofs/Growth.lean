import PaneLayout.Plan
import PaneLayout.Proofs.LinkCheck
import PaneLayout.Proofs.SortedMap

set_option autoImplicit false

/-!
# Documents that grow

A document after some widgets were created on it, one for each of a list of creations. Their
sections are the next numbers of the document, and they are all on one page.
-/

namespace PaneLayout.Document

variable {α : Type}

/-- The next `n` sections that the document hands out. -/
def nextSections (d : Document α) (n : Nat) : List SectionId :=
  (List.range n).map fun i => ⟨d.lastSection + UInt32.ofNat (i + 1)⟩

theorem nextSections_length (d : Document α) (n : Nat) : (d.nextSections n).length = n := by
  simp [nextSections]

theorem nextSections_succ (d : Document α) (n : Nat) :
    d.nextSections (n + 1) = d.nextSections n ++ [⟨d.lastSection + UInt32.ofNat (n + 1)⟩] := by
  simp [nextSections, List.range_succ]

theorem nextSections_subset {d : Document α} {m n : Nat} (le : m ≤ n) :
    d.nextSections m ⊆ d.nextSections n := by
  intro id hid
  obtain ⟨i, hi, rfl⟩ := List.mem_map.1 hid
  rw [List.mem_range] at hi
  exact List.mem_map.2 ⟨i, List.mem_range.2 (by omega), rfl⟩

def made (d : Document α) (cs : List Creation) : List WidgetInfo :=
  List.zipWith (fun id c => .create id c.table c.type) (d.nextSections cs.length) cs

theorem made_concat (d : Document α) (cs : List Creation) (c : Creation) : d.made (cs ++ [c]) =
    d.made cs ++ [.create ⟨d.lastSection + UInt32.ofNat (cs.length + 1)⟩ c.table c.type] := by
  simp only [made, List.length_append, List.length_singleton, nextSections_succ]
  rw [List.zipWith_append (d.nextSections_length cs.length)]
  rfl

theorem made_length (d : Document α) (cs : List Creation) : (d.made cs).length = cs.length := by
  simp [made, nextSections_length]

theorem made_ids (d : Document α) (cs : List Creation) :
    (d.made cs).map (·.id) = d.nextSections cs.length := by
  apply List.ext_getElem
  · simp [made_length, nextSections_length]
  · intro i h₁ h₂
    simp [made, WidgetInfo.create]

/-- The page that new widgets are put on: the given one, or a new one. -/
def home (d : Document α) (view : Option ViewRef) : ViewRef := view.getD ⟨d.lastView + 1⟩

/-- The page as it is known after the creations. -/
def openedView (d : Document α) (view : Option ViewRef) : List Creation → Option ViewRef
  | [] => view
  | _ :: _ => some (d.home view)

/-- The document `e` is `d` after the creations `cs`. -/
structure Grown (d : Document α) (view : Option ViewRef) (cs : List Creation) (e : Document α) :
    Prop where
  tables : e.tables = d.tables
  creates : e.createCalls = d.createCalls + cs.length
  applies : e.applyCalls = d.applyCalls
  failing : e.failCreateAt = d.failCreateAt
  rejecting : e.rejectMutationAt = d.rejectMutationAt
  last : e.lastSection = d.lastSection + UInt32.ofNat cs.length
  lastView : cs = [] → e.lastView = d.lastView
  widgets : e.widgets = d.widgets.insertAll ((d.made cs).map fun w => (w.id, w))
  views : e.widgetViews =
    d.widgetViews.insertAll ((d.nextSections cs.length).map fun id => (id, d.home view))
  otherPages : ∀ v, v ≠ d.home view → e.pages.get? v = d.pages.get? v
  pages : ∀ v, d.pages.contains v = true → e.pages.contains v = true
  opened : cs ≠ [] → e.pages.contains (d.home view) = true

/-- Whether a creation succeeds. -/
structure Creatable (d : Document α) (view : Option ViewRef) (c : Creation) : Prop where
  works : d.failCreateAt ≠ some d.createCalls
  table : d.tables.contains c.table = true
  page : ∀ v, view = some v → d.pages.contains v = true
  room : d.lastSection.toNat + 1 < UInt32.size
  pageRoom : view = none → d.lastView.toNat + 1 < UInt32.size

variable {d e e' : Document α} {view : Option ViewRef} {cs : List Creation}

theorem openedView_concat (d : Document α) (view : Option ViewRef) (cs : List Creation)
    (c : Creation) : d.openedView view (cs ++ [c]) = some (d.home view) := by
  cases cs <;> rfl

theorem grown_nil (d : Document α) (view : Option ViewRef) : d.Grown view [] d where
  tables := rfl
  creates := rfl
  applies := rfl
  failing := rfl
  rejecting := rfl
  last := by simp
  lastView := fun _ => rfl
  widgets := rfl
  views := rfl
  otherPages := fun _ _ => rfl
  pages := fun _ h => h
  opened := fun h => absurd rfl h

theorem Grown.read (g : d.Grown view cs e) (read : e.OnlyRead e') : d.Grown view cs e' := by
  unfold OnlyRead at read
  rw [read]
  exact ⟨g.tables, g.creates, g.applies, g.failing, g.rejecting, g.last, g.lastView, g.widgets,
    g.views, g.otherPages, g.pages, g.opened⟩

/-! ## One creation -/

theorem isSpent_eq_false_iff {n : UInt32} : isSpent n = false ↔ n.toNat + 1 < UInt32.size := by
  have bound : n.toNat < UInt32.size := n.toNat_lt
  rw [isSpent, beq_eq_false_iff_ne]
  omega

/-- What is refused, and what does not return, is counted all the same. -/
theorem createWidget_of_not_creatable {c : Creation} (h : ¬ d.Creatable view c) : ∃ f spent,
    createWidget c.table c.type view d =
      (.error f, { d with createCalls := d.createCalls + 1, overflowed := spent }) := by
  unfold createWidget
  by_cases works : d.failCreateAt = some d.createCalls
  · exact ⟨_, d.overflowed, if_pos works⟩
  simp only [if_neg works]
  cases table : d.tables.contains c.table with
  | false => exact ⟨_, d.overflowed, rfl⟩
  | true =>
    cases view with
    | some v =>
      cases page : d.pages.contains v with
      | false => exact ⟨_, d.overflowed, by simp only [page]; rfl⟩
      | true =>
        have spent : isSpent d.lastSection = true := by
          refine Bool.of_not_eq_false fun room => h ⟨works, table, fun v' hv => ?_,
            isSpent_eq_false_iff.1 room, nofun⟩
          rwa [← Option.some.inj hv]
        exact ⟨_, true, by simp only [page, spent]; rfl⟩
    | none =>
      have spent : (isSpent d.lastView || isSpent d.lastSection) = true := by
        refine Bool.of_not_eq_false fun room => ?_
        obtain ⟨views, sections⟩ := Bool.or_eq_false_iff.1 room
        exact h ⟨works, table, nofun, isSpent_eq_false_iff.1 sections,
          fun _ => isSpent_eq_false_iff.1 views⟩
      exact ⟨_, true, by simp only [spent]; rfl⟩

def placed (d : Document α) (view : Option ViewRef) (c : Creation) : CreatedWidget × Document α :=
  match view with
  | some v => { d with createCalls := d.createCalls + 1 }.placeNew v c.table c.type
  | none => { d with createCalls := d.createCalls + 1, lastView := d.lastView + 1 }.placeNew
      ⟨d.lastView + 1⟩ c.table c.type

theorem createWidget_of_creatable {c : Creation} (h : d.Creatable view c) :
    createWidget c.table c.type view d = (.ok (d.placed view c).1, (d.placed view c).2) := by
  have sections := isSpent_eq_false_iff.2 h.room
  unfold createWidget placed
  cases view with
  | none => simp [h.works, h.table, sections, isSpent_eq_false_iff.2 (h.pageRoom rfl)]
  | some v => simp [h.works, h.table, h.page v rfl, sections]

theorem createWidget_snd (d : Document α) (t : TableRef) (type : WidgetType)
    (view : Option ViewRef) :
    (∃ spent, (createWidget t type view d).2 =
        { d with createCalls := d.createCalls + 1, overflowed := spent }) ∨
      d.Creatable view ⟨0, ⟨0⟩, t, type⟩ ∧
        (createWidget t type view d).2 = (d.placed view ⟨0, ⟨0⟩, t, type⟩).2 := by
  let c : Creation := ⟨0, ⟨0⟩, t, type⟩
  by_cases can : d.Creatable view c
  · exact .inr ⟨can, congrArg Prod.snd (createWidget_of_creatable can)⟩
  · obtain ⟨f, spent, run⟩ := createWidget_of_not_creatable can
    exact .inl ⟨spent, congrArg Prod.snd run⟩

theorem placed_fst (d : Document α) (view : Option ViewRef) (c : Creation) :
    (d.placed view c).1 = ⟨⟨d.lastSection + 1⟩, d.home view⟩ := by
  cases view <;> rfl

theorem placeNew_snd (d : Document α) (view : ViewRef) (table : TableRef) (type : WidgetType) :
    (d.placeNew view table type).2 = { d with
      lastSection := d.lastSection + 1
      lastView := max d.lastView view.raw
      pages := (d.pages.insertNew view none).insert view
        (some ((d.layout? view).getD (.leaf ⟨d.lastSection + 1⟩)))
      widgetViews := d.widgetViews.insert ⟨d.lastSection + 1⟩ view
      widgets := d.widgets.insert ⟨d.lastSection + 1⟩
        (.create ⟨d.lastSection + 1⟩ table type) } := by
  have last : max (d.lastSection + 1) (d.lastSection + 1) = d.lastSection + 1 := ite_self _
  have shown : ((d.pages.insertNew view none).get? view).join = d.layout? view := by
    rw [SortedMap.get?_insertNew, if_pos rfl, layout?]
    cases d.pages.get? view <;> rfl
  simp only [placeNew, addWidget, WidgetInfo.create, layout?, shown, last]

theorem placed_snd (d : Document α) (view : Option ViewRef) (c : Creation) :
    (d.placed view c).2 = { d with
      createCalls := d.createCalls + 1
      lastSection := d.lastSection + 1
      lastView := max (if view.isNone then d.lastView + 1 else d.lastView) (d.home view).raw
      pages := (d.pages.insertNew (d.home view) none).insert (d.home view)
        (some ((d.layout? (d.home view)).getD (.leaf ⟨d.lastSection + 1⟩)))
      widgetViews := d.widgetViews.insert ⟨d.lastSection + 1⟩ (d.home view)
      widgets := d.widgets.insert ⟨d.lastSection + 1⟩
        (.create ⟨d.lastSection + 1⟩ c.table c.type) } := by
  cases view <;> exact placeNew_snd _ _ _ _

theorem get?_shown_of_ne {ps : SortedMap ViewRef (Option (Native α SectionId))} {v v' : ViewRef}
    {n : Option (Native α SectionId)} (h : v' ≠ v) :
    ((ps.insertNew v none).insert v n).get? v' = ps.get? v' := by
  rw [SortedMap.get?_insert_of_ne _ _ h, SortedMap.get?_insertNew, if_neg h]

theorem contains_shown {ps : SortedMap ViewRef (Option (Native α SectionId))} {v v' : ViewRef}
    {n : Option (Native α SectionId)} : ((ps.insertNew v none).insert v n).contains v' = true ↔
      v' = v ∨ ps.contains v' = true := by
  rw [SortedMap.contains_insert, Bool.or_eq_true, decide_eq_true_eq, SortedMap.contains_insertNew,
    or_self_left]

/-- A page that shows something shows the same after a creation. -/
theorem layout?_placed {view : Option ViewRef} {v : ViewRef} {n : Native α SectionId}
    (h : d.layout? v = some n) (c : Creation) : (d.placed view c).2.layout? v = some n := by
  rw [placed_snd]
  change Option.join (SortedMap.get? _ v) = some n
  by_cases home : v = d.home view
  · rw [← home, SortedMap.get?_insert_self, h]
    rfl
  · rw [get?_shown_of_ne home]
    exact h

theorem Grown.home_eq (g : d.Grown view cs e) : e.home (d.openedView view cs) = d.home view := by
  cases cs with
  | nil =>
    unfold home
    rw [g.lastView rfl]
    rfl
  | cons _ _ => rfl

theorem Grown.next_eq (g : d.Grown view cs e) :
    e.lastSection + 1 = d.lastSection + UInt32.ofNat (cs.length + 1) := by
  rw [g.last, UInt32.ofNat_add, UInt32.add_assoc]
  rfl

theorem Grown.placed (g : d.Grown view cs e) (c : Creation) :
    d.Grown view (cs ++ [c]) (e.placed (d.openedView view cs) c).2 := by
  have he := e.placed_snd (d.openedView view cs) c
  rw [g.home_eq, g.next_eq] at he
  have ids : d.nextSections (cs ++ [c]).length =
      d.nextSections cs.length ++ [⟨d.lastSection + UInt32.ofNat (cs.length + 1)⟩] := by
    rw [List.length_append, List.length_singleton, nextSections_succ]
  rw [he]
  constructor
  case tables => exact g.tables
  case creates => simp [g.creates, Nat.add_assoc]
  case applies => exact g.applies
  case failing => exact g.failing
  case rejecting => exact g.rejecting
  case last => simp
  case lastView => simp
  case widgets =>
    rw [made_concat, List.map_append, List.map_singleton, SortedMap.insertAll_concat, g.widgets]
    rfl
  case views => rw [ids, List.map_append, List.map_singleton, SortedMap.insertAll_concat, g.views]
  case otherPages =>
    intro v other
    exact (get?_shown_of_ne other).trans (g.otherPages v other)
  case pages =>
    intro v hv
    exact contains_shown.2 (.inr (g.pages v hv))
  case opened =>
    intro _
    exact contains_shown.2 (.inl rfl)

theorem Grown.create (g : d.Grown view cs e) {c : Creation}
    (h : e.Creatable (d.openedView view cs) c) : ∃ w e',
    createWidget c.table c.type (d.openedView view cs) e = (.ok w, e') ∧
    d.Grown view (cs ++ [c]) e' ∧
    w = ⟨⟨d.lastSection + UInt32.ofNat (cs.length + 1)⟩, d.home view⟩ := by
  refine ⟨_, _, createWidget_of_creatable h, g.placed c, ?_⟩
  rw [placed_fst, g.home_eq, g.next_eq]

/-! ## The grown document -/

theorem Grown.widget?_of_notMem (g : d.Grown view cs e) {id : SectionId}
    (h : id ∉ d.nextSections cs.length) : e.widget? id = d.widget? id := by
  unfold widget?
  rw [g.widgets]
  apply SortedMap.get?_insertAll_of_notMem
  rwa [List.map_map, ← made_ids] at *

theorem Grown.widget?_of_mem (g : d.Grown view cs e) (distinct : (d.nextSections cs.length).Nodup)
    {w : WidgetInfo} (h : w ∈ d.made cs) : e.widget? w.id = some w := by
  unfold widget?
  rw [g.widgets]
  apply SortedMap.get?_insertAll_of_mem
  · rwa [List.map_map, ← made_ids] at *
  · exact List.mem_map_of_mem h

theorem Grown.contains_iff (g : d.Grown view cs e) (id : SectionId) :
    e.widgets.contains id = true ↔
      d.widgets.contains id = true ∨ id ∈ d.nextSections cs.length := by
  rw [g.widgets, SortedMap.contains_insertAll, List.map_map, ← made_ids]
  rfl

theorem Grown.view_of_notMem (g : d.Grown view cs e) {id : SectionId}
    (h : id ∉ d.nextSections cs.length) : e.widgetViews.get? id = d.widgetViews.get? id := by
  rw [g.views]
  apply SortedMap.get?_insertAll_of_notMem
  rw [List.map_map]
  simpa using h

theorem Grown.view_of_mem (g : d.Grown view cs e) {id : SectionId}
    (h : id ∈ d.nextSections cs.length) : e.widgetViews.get? id = some (d.home view) := by
  rw [g.views]
  exact SortedMap.get?_insertAll_same h

/-! ## Room for more -/

/-- A counter that is not at its end. -/
theorem toNat_succ {n : UInt32} (room : n.toNat + 1 < UInt32.size) :
    (n + 1).toNat = n.toNat + 1 := by
  rw [UInt32.toNat_add]
  exact Nat.mod_eq_of_lt room

theorem Grown.toNat_last (g : d.Grown view cs e)
    (room : d.lastSection.toNat + cs.length < UInt32.size) :
    e.lastSection.toNat = d.lastSection.toNat + cs.length := by
  rw [g.last, UInt32.toNat_add, UInt32.toNat_ofNat_of_lt' (by omega)]
  exact Nat.mod_eq_of_lt room

theorem nextSections_toNat {n : Nat} (room : d.lastSection.toNat + n < UInt32.size) :
    (d.nextSections n).map (·.toNat) = List.range' (d.lastSection.toNat + 1) n := by
  rw [nextSections, List.map_map, List.range'_eq_map_range]
  apply List.map_congr_left
  intro i hi
  have bound : i < n := List.mem_range.1 hi
  have step : (UInt32.ofNat (i + 1)).toNat = i + 1 := UInt32.toNat_ofNat_of_lt' (by omega)
  rw [UInt32.size] at room
  have total : (d.lastSection + UInt32.ofNat (i + 1)).toNat = d.lastSection.toNat + (i + 1) := by
    rw [UInt32.toNat_add, step]
    omega
  change (d.lastSection + UInt32.ofNat (i + 1)).toNat = _
  rw [total]
  omega

/-- A document that does not run out of numbers hands out new ones. -/
theorem nextSections_nodup {n : Nat} (room : d.lastSection.toNat + n < UInt32.size) :
    (d.nextSections n).Nodup := by
  have distinct : ((d.nextSections n).map (·.toNat)).Nodup := by
    rw [nextSections_toNat room]
    exact List.nodup_range'
  exact List.Pairwise.of_map _ (fun a b ne same => ne (congrArg _ same)) distinct

theorem lt_of_mem_nextSections {n : Nat} (room : d.lastSection.toNat + n < UInt32.size) {id : SectionId}
    (h : id ∈ d.nextSections n) : d.lastSection.toNat < id.toNat := by
  have mem := List.mem_map_of_mem (f := fun i : SectionId => i.toNat) h
  rw [nextSections_toNat room, List.mem_range'_1] at mem
  omega

end PaneLayout.Document
