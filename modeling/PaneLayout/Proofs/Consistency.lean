import PaneLayout.Proofs.Reachable

set_option autoImplicit false

/-!
# Consistent documents

What one of the maps of a document says the others bear out: a widget is filed under its own
section, its table and its page are there, pages show sections of their own, and links lead to
widgets. Whatever the calls that write are given and however they end, they keep this.

Consistency says nothing of a place that is left of a section without a widget. No call and no
builder leaves one, and a page could show it.
-/

namespace PaneLayout.Document

variable {α : Type} {d e : Document α}

/-- The record `w` belongs to the section `id`, and its table and its page are there. -/
structure Files (d : Document α) (id : SectionId) (w : WidgetInfo) : Prop where
  own : w.id = id
  table : d.tables.contains w.table = true
  page : ∃ view, d.widgetViews.get? id = some view ∧ d.pages.contains view = true

def Filed (d : Document α) : Prop := ∀ id w, d.widgets.get? id = some w → d.Files id w

structure Consistent (d : Document α) : Prop where
  filed : d.Filed
  sections : d.Numbered
  views : d.Paged
  shown : ∀ view n, d.layout? view = some n → ∀ id ∈ n.leaves,
    d.widgets.contains id = true ∧ d.widgetViews.get? id = some view
  linked : ∀ id w raw, d.widgets.get? id = some w → w.link = some raw →
    d.widgets.contains raw.source = true

theorem Files.mono {id : SectionId} {w : WidgetInfo} (h : d.Files id w)
    (tables : d.tables.contains w.table = true → e.tables.contains w.table = true)
    (place : e.widgetViews.get? id = d.widgetViews.get? id)
    (pages : ∀ v, d.pages.contains v = true → e.pages.contains v = true) : e.Files id w := by
  obtain ⟨own, table, view, on, known⟩ := h
  exact ⟨own, tables table, view, place.trans on, pages view known⟩

/-- The counts of calls and what is to fail have no part in it. -/
theorem Consistent.counting (h : d.Consistent) (creates applies : Nat) (reject : Option Nat)
    (spent : Bool) : Consistent { d with
      createCalls := creates, applyCalls := applies, rejectMutationAt := reject
      overflowed := spent } :=
  ⟨fun id w hw => (h.filed id w hw).mono (fun t => t) rfl fun _ v => v, h.sections, h.views, h.shown,
    h.linked⟩

theorem consistent_empty : (empty : Document α).Consistent where
  filed := fun _ _ none => nomatch none
  sections := fun _ none => nomatch none
  views := fun _ none => nomatch none
  shown := fun _ _ none => nomatch none
  linked := fun _ _ _ none => nomatch none

theorem Filed.addTable (h : d.Filed) (name : String) (columns : List (String × String))
    (summaryOf : Option TableRef) : (d.addTable name columns summaryOf).Filed := by
  intro id w hw
  refine (h id w hw).mono (fun there => ?_) rfl fun _ known => known
  change (SortedMap.insert _ _ _).contains w.table = true
  rw [SortedMap.contains_insert, there, Bool.or_true]

theorem Consistent.addTable (h : d.Consistent) (name : String) (columns : List (String × String))
    (summaryOf : Option TableRef) : (d.addTable name columns summaryOf).Consistent where
  filed := h.filed.addTable name columns summaryOf
  sections := h.sections
  views := h.views
  shown := h.shown
  linked := h.linked

/-! ## Mutations -/

theorem Consistent.setPage (h : d.Consistent) (placed : d.Placed) {view : ViewRef}
    {n : Native α SectionId} (there : d.pages.contains view = true)
    (on : ∀ id ∈ n.leaves, d.widgetViews.get? id = some view) :
    Consistent { d with pages := d.pages.insert view (some n) } where
  filed := by
    intro id w hw
    refine (h.filed id w hw).mono (fun there => there) rfl fun v known => ?_
    rw [SortedMap.contains_insert, known, Bool.or_true]
  sections := h.sections
  views := by
    intro view' hv
    rw [SortedMap.contains_insert, Bool.or_eq_true, decide_eq_true_eq] at hv
    rcases hv with rfl | hv
    · exact h.views view' there
    · exact h.views view' hv
  shown := by
    intro view' n' hn id hid
    rw [layout?, SortedMap.get?_insert] at hn
    split at hn
    · next same =>
      obtain rfl : n = n' := Option.some.inj hn
      rw [same]
      refine ⟨?_, on id hid⟩
      rw [← placed id, SortedMap.contains, on id hid]
      rfl
    · exact h.shown view' n' hn id hid
  linked := h.linked

/-- A change to one widget that leaves it its number and its table. -/
theorem Consistent.setWidget (h : d.Consistent) {id : SectionId} {w v : WidgetInfo}
    (hw : d.widgets.get? id = some w) (own : v.id = w.id) (table : v.table = w.table)
    (linked : ∀ raw, v.link = some raw → d.widgets.contains raw.source = true) :
    Consistent { d with widgets := d.widgets.insert id v } := by
  have there : d.widgets.contains id = true := by
    rw [SortedMap.contains, hw]
    rfl
  have same (j : SectionId) : (d.widgets.insert id v).contains j = d.widgets.contains j := by
    rw [SortedMap.contains_insert]
    by_cases hj : j = id
    · rw [hj, there, Bool.or_true]
    · rw [decide_eq_false hj, Bool.false_or]
  constructor
  case filed =>
    intro j x hx
    rw [SortedMap.get?_insert] at hx
    split at hx
    · next hj =>
      obtain rfl := Option.some.inj hx
      have before := h.filed id w hw
      rw [hj]
      exact ⟨own.trans before.own, table ▸ before.table, before.page⟩
    · exact (h.filed j x hx).mono (fun there => there) rfl fun _ known => known
  case sections => exact fun j hj => h.sections j ((same j).symm.trans hj)
  case views => exact h.views
  case shown =>
    intro view n hn j hj
    exact (h.shown view n hn j hj).imp_left (same j).trans
  case linked =>
    intro j x raw hx hl
    rw [SortedMap.get?_insert] at hx
    rw [same]
    split at hx
    · obtain rfl := Option.some.inj hx
      exact linked raw hl
    · exact h.linked j x raw hx hl

theorem updateWidget_ok {id : SectionId} {f : WidgetInfo → WidgetInfo}
    (run : d.updateWidget id f = .ok e) : ∃ w, d.widgets.get? id = some w ∧
      e = { d with widgets := d.widgets.insert id (f w) } := by
  rw [updateWidget] at run
  split at run
  · next w hw => exact ⟨w, hw, (Except.ok.inj run).symm⟩
  · cases run

/-- A mutation that is accepted keeps a document consistent. One that is refused leaves none. -/
theorem Consistent.applyOne (h : d.Consistent) (placed : d.Placed) {m : Mutation α}
    (run : d.applyOne m = .ok e) : e.Consistent := by
  cases m with
  | setLayout view n =>
    rcases d.applyLayout_cases view n with ⟨⟨there, on⟩, done⟩ | ⟨-, reason, refused⟩
    · obtain rfl := Except.ok.inj (done.symm.trans run)
      exact h.setPage placed there on
    · cases refused.symm.trans run
  | setLink id raw =>
    rw [Document.applyOne] at run
    split at run
    · next source =>
      obtain ⟨w, hw, rfl⟩ := updateWidget_ok run
      refine h.setWidget hw rfl rfl fun raw' hl => ?_
      by_cases valid : raw.source.isValid = true
      · rw [w.link_withLink raw valid] at hl
        rwa [← Option.some.inj hl]
      · have zero : raw.source.raw = 0 := by simpa [SectionId.isValid] using valid
        rw [WidgetInfo.link, WidgetInfo.withLink, if_pos zero] at hl
        cases hl
    · cases run
  | setSectionInfo id title description =>
    obtain ⟨w, hw, rfl⟩ := updateWidget_ok run
    exact h.setWidget hw rfl rfl fun raw hl => h.linked id w raw hw hl

theorem Placed.applyOne (h : d.Placed) {m : Mutation α} (run : d.applyOne m = .ok e) :
    e.Placed := by
  rcases d.applyOne_cases m with ⟨-, e', run', applied⟩ | ⟨-, reason, refused⟩
  · obtain rfl := Except.ok.inj (run'.symm.trans run)
    exact placed_of_applied h applied
  · cases refused.symm.trans run

theorem Consistent.applyMutations (h : d.Consistent) (placed : d.Placed)
    (ms : List (Mutation α)) : (applyMutations ms d).2.Consistent := by
  have start : d.bundling.Consistent :=
    h.counting d.createCalls (d.applyCalls + 1) none d.overflowed
  have kept := applyFrom_keeps (d := d.bundling) (P := fun e => e.Consistent ∧ e.Placed)
    (fun both run => ⟨both.1.applyOne both.2 run, both.2.applyOne run⟩) ⟨start, placed⟩
    d.rejectMutationAt 0 ms
  exact kept.1

/-! ## Creations -/

/-- The creation that was answered `w` added one widget. -/
structure Adds (d : Document α) (table : TableRef) (type : WidgetType) (view : Option ViewRef)
    (w : CreatedWidget) (e : Document α) : Prop where
  valid : w.id.isValid = true
  unused : d.widgets.contains w.id = false
  widgets : e.widgets = d.widgets.insert w.id (.create w.id table type)
  views : e.widgetViews = d.widgetViews.insert w.id w.view
  given : ∀ v, view = some v → w.view = v ∧ d.pages.contains v = true
  opened : view = none → d.pages.contains w.view = false

theorem consistent_of_placed (h : d.Consistent) {view : Option ViewRef} {c : Creation}
    (can : d.Creatable view c) : (d.placed view c).2.Consistent := by
  have new := congrArg Option.isSome (h.sections.widget?_next can.room)
  have old {id : SectionId} (hid : d.widgets.contains id = true) :
      id ≠ ⟨d.lastSection + 1⟩ := by
    rintro rfl
    cases hid.symm.trans new
  have numbered := numbered_of_placed h.sections can
  have paged := paged_of_placed h.views can
  rw [placed_snd] at numbered paged ⊢
  refine ⟨?filed, numbered, paged, ?shown, ?linked⟩
  case filed =>
    intro id w hw
    rw [SortedMap.get?_insert] at hw
    split at hw
    · next hid =>
      obtain rfl := Option.some.inj hw
      refine ⟨hid.symm, can.table, d.home view, ?_, contains_shown.2 (.inl rfl)⟩
      rw [hid, SortedMap.get?_insert_self]
    · next hid =>
      exact (h.filed id w hw).mono (fun there => there) (SortedMap.get?_insert_of_ne _ _ hid)
        fun _ known => contains_shown.2 (.inr known)
  case shown =>
    -- What a page shows was there before, but for the new widget on a page that showed nothing.
    have kept {view' : ViewRef} {n : Native α SectionId} (hn : d.layout? view' = some n) :
        ∀ id ∈ n.leaves, (d.widgets.insert ⟨d.lastSection + 1⟩
            (.create ⟨d.lastSection + 1⟩ c.table c.type)).contains id = true ∧
          (d.widgetViews.insert ⟨d.lastSection + 1⟩ (d.home view)).get? id = some view' := by
      intro id hid
      obtain ⟨known, on⟩ := h.shown view' n hn id hid
      rw [SortedMap.contains_insert, known, Bool.or_true,
        SortedMap.get?_insert_of_ne _ _ (old known)]
      exact ⟨rfl, on⟩
    intro view' n hn
    rw [layout?] at hn
    by_cases same : view' = d.home view
    · rw [same, SortedMap.get?_insert_self] at hn
      rw [same]
      cases hv : d.layout? (d.home view) with
      | some n' =>
        rw [hv] at hn
        obtain rfl : n' = n := Option.some.inj hn
        exact kept hv
      | none =>
        rw [hv] at hn
        obtain rfl : .leaf ⟨d.lastSection + 1⟩ = n := Option.some.inj hn
        refine List.forall_mem_singleton.2 ⟨?_, SortedMap.get?_insert_self ..⟩
        rw [SortedMap.contains_insert, decide_eq_true rfl, Bool.true_or]
    · rw [get?_shown_of_ne same] at hn
      exact kept hn
  case linked =>
    intro id w raw hw hl
    rw [SortedMap.contains_insert, Bool.or_eq_true]
    rw [SortedMap.get?_insert] at hw
    split at hw
    · obtain rfl := Option.some.inj hw
      cases hl
    · exact .inr (h.linked id w raw hw hl)

theorem Consistent.createWidget (h : d.Consistent) (table : TableRef) (type : WidgetType)
    (view : Option ViewRef) : (createWidget table type view d).2.Consistent := by
  rcases d.createWidget_snd table type view with ⟨spent, refused⟩ | ⟨can, made⟩
  · rw [refused]
    exact h.counting (d.createCalls + 1) d.applyCalls d.rejectMutationAt spent
  · rw [made]
    exact consistent_of_placed h can

/-- A creation that succeeds takes the next number of each kind that it needs. -/
theorem adds_of_ok (numbered : d.Numbered) (paged : d.Paged) {table : TableRef}
    {type : WidgetType} {view : Option ViewRef} {w : CreatedWidget}
    (run : Document.createWidget table type view d = (.ok w, e)) : d.Adds table type view w e := by
  let c : Creation := ⟨0, ⟨0⟩, table, type⟩
  by_cases can : d.Creatable view c
  · obtain ⟨hw, he⟩ := Prod.mk.inj ((createWidget_of_creatable can).symm.trans run)
    replace hw := Except.ok.inj hw
    rw [placed_fst] at hw
    rw [placed_snd] at he
    subst hw he
    refine ⟨?_, congrArg Option.isSome (numbered.widget?_next can.room), rfl, rfl, ?_, ?_⟩
    · rw [SectionId.isValid, bne_iff_ne]
      intro zero
      have next := toNat_succ can.room
      rw [show d.lastSection + 1 = 0 from zero] at next
      cases next
    · rintro v rfl
      exact ⟨rfl, can.page v rfl⟩
    · rintro rfl
      refine Bool.eq_false_iff.2 fun old => ?_
      have le : (d.lastView + 1).toNat ≤ d.lastView.toNat := paged _ old
      rw [toNat_succ (can.pageRoom rfl)] at le
      omega
  · obtain ⟨f, spent, refused⟩ := createWidget_of_not_creatable can
    cases refused.symm.trans run

/-- On a document that can come about, a call that writes keeps consistency, however it ends. A
creation that succeeds adds one widget, with a section of its own, on the page it was asked for or
on a new one. -/
theorem consistent_call (reach : d.Reachable) (h : d.Consistent) :
    (∀ ms, (client.applyMutations ms d).2.Consistent) ∧
    ∀ table type view, (client.createWidget table type view d).2.Consistent ∧
      ∀ w e, client.createWidget table type view d = (.ok w, e) →
        d.Adds table type view w e :=
  ⟨h.applyMutations reach.placed, fun table type view =>
    ⟨h.createWidget table type view, fun _ _ run => adds_of_ok h.sections h.views run⟩⟩

/-- A document with one table and, on a page of its own, one widget. -/
def begun : Document Rat :=
  (createWidget ⟨1⟩ .grid none (empty.addTable "Orders" [("Total", "Numeric")] none)).2

theorem begun_reachable : begun.Reachable := .createWidget _ _ _ (.addTable _ _ _ .empty)

theorem begun_consistent : begun.Consistent :=
  (consistent_empty.addTable _ _ _).createWidget ⟨1⟩ .grid none

theorem consistent_call_begun : (begun.Reachable ∧ begun.Consistent) ∧
    (∀ ms, (client.applyMutations ms begun).2.Consistent) ∧
    ∀ table type view, (client.createWidget table type view begun).2.Consistent ∧
      ∀ w e, client.createWidget table type view begun = (.ok w, e) →
        begun.Adds table type view w e :=
  ⟨⟨begun_reachable, begun_consistent⟩, consistent_call begun_reachable begun_consistent⟩

/-- Consistency does not notice a place that is left of a section without a widget. -/
theorem Consistent.stray (h : d.Consistent) {id : SectionId} (absent : d.widgets.contains id = false)
    (view : ViewRef) : Consistent { d with widgetViews := d.widgetViews.insert id view } := by
  have place {j : SectionId} (there : d.widgets.contains j = true) :
      (d.widgetViews.insert id view).get? j = d.widgetViews.get? j := by
    refine SortedMap.get?_insert_of_ne _ _ ?_
    rintro rfl
    cases there.symm.trans absent
  refine ⟨fun j w hw => ?_, h.sections, h.views, fun v n hn j hj => ?_, h.linked⟩
  · exact (h.filed j w hw).mono (fun there => there) (place (Option.isSome_iff_exists.2 ⟨w, hw⟩))
      fun _ known => known
  · obtain ⟨there, on⟩ := h.shown v n hn j hj
    exact ⟨there, (place there).trans on⟩

/-- Such a place is taken for a widget by the page it is on. No history leaves one. -/
theorem consistent_lost : ∃ d : Document Rat, d.Consistent ∧ ¬ d.Reachable ∧
    ¬ (client.applyMutations [.setLayout ⟨1⟩ (.leaf ⟨5⟩)] d).2.Consistent := by
  have absent : begun.widgets.contains ⟨5⟩ = false := rfl
  refine ⟨_, begun_consistent.stray absent ⟨1⟩, fun reach => ?_, fun lost => ?_⟩
  · cases reach.placed ⟨5⟩
  · cases (lost.shown ⟨1⟩ (.leaf ⟨5⟩) rfl ⟨5⟩ List.mem_cons_self).1

/-! ## Any number of calls -/

/-- The calls that write. -/
inductive Call (α : Type) where
  | create (table : TableRef) (type : WidgetType) (view : Option ViewRef)
  | apply (ms : List (Mutation α))

/-- What a call leaves, however it ends. -/
def Call.after (d : Document α) : Call α → Document α
  | create table type view => (client.createWidget table type view d).2
  | apply ms => (client.applyMutations ms d).2

theorem Reachable.after (h : d.Reachable) (c : Call α) : (c.after d).Reachable := by
  cases c with
  | create table type view => exact .createWidget table type view h
  | apply ms => exact .applyMutations ms h

theorem Consistent.after (reach : d.Reachable) (h : d.Consistent) (c : Call α) :
    (c.after d).Consistent := by
  cases c with
  | create table type view => exact h.createWidget table type view
  | apply ms => exact h.applyMutations reach.placed ms

theorem Consistent.calls (reach : d.Reachable) (h : d.Consistent) (cs : List (Call α)) :
    (cs.foldl Call.after d).Consistent := by
  induction cs generalizing d with
  | nil => exact h
  | cons c cs ih => exact ih (reach.after c) (h.after reach c)

/-! ## Documents that fixtures describe -/

theorem Filed.setPage (h : d.Filed) (view : ViewRef) (layout : Option (Native α SectionId)) :
    (d.setPage view layout).Filed := by
  intro id w hw
  refine (h id w hw).mono (fun there => there) rfl fun v known => ?_
  change (d.pages.insert view layout).contains v = true
  rw [SortedMap.contains_insert, known, Bool.or_true]

theorem Filed.addWidget (h : d.Filed) (view : ViewRef) {w : WidgetInfo}
    (there : d.tables.contains w.table = true) : (d.addWidget view w).Filed := by
  have pages (v : ViewRef) := d.pages.contains_insertNew view v none
  intro id x hx
  change (d.widgets.insert w.id w).get? id = some x at hx
  rw [SortedMap.get?_insert] at hx
  split at hx
  · next hid =>
    obtain rfl := Option.some.inj hx
    refine ⟨hid.symm, there, view, ?_, (pages view).2 (.inl rfl)⟩
    change (d.widgetViews.insert w.id view).get? id = some view
    rw [hid, SortedMap.get?_insert_self]
  · next hid =>
    exact (h id x hx).mono (fun t => t) (SortedMap.get?_insert_of_ne _ _ hid)
      fun v known => (pages v).2 (.inr known)

theorem filed_of_fixture {f : DocumentFixture α} (built : ofFixture f = .ok d) : d.Filed := by
  obtain ⟨c, tables, pages⟩ := ofFixture_ok built
  have start : (empty : Document α).Filed := fun _ _ none => nomatch none
  have listed : c.Filed := by
    refine foldlM_keeps ?_ start tables
    intro d t _ e h run
    obtain ⟨-, rfl⟩ := addTableFixture_ok run
    exact h.addTable _ _ _
  refine foldlM_keeps ?_ listed pages
  intro d p _ e h run
  exact addPageFixture_keeps (h.setPage p.view p.layout)
    (fun _ _ _ h there => h.addWidget p.view there) run

/-- Of a document that a fixture describes only the pages and the links have to be looked at. If
they are in order, the document stays consistent whatever is called, one call after the other. -/
theorem consistent_calls_of_fixture {f : DocumentFixture α} (built : ofFixture f = .ok d)
    (shown : ∀ view n, d.layout? view = some n → ∀ id ∈ n.leaves,
      d.widgets.contains id = true ∧ d.widgetViews.get? id = some view)
    (linked : ∀ id w raw, d.widgets.get? id = some w → w.link = some raw →
      d.widgets.contains raw.source = true) (cs : List (Call α)) :
    (cs.foldl Call.after d).Consistent := by
  have reach := reachable_of_fixture built
  have start : d.Consistent :=
    ⟨filed_of_fixture built, reach.numbered, reach.paged, shown, linked⟩
  exact start.calls reach cs

end PaneLayout.Document
