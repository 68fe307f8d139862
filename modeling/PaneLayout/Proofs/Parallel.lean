import PaneLayout.Proofs.Reapplication

set_option autoImplicit false

/-!
# Documents that take the same bundles

Two documents with the same pages and with the same widgets on them, whatever these store, take the
same mutations and refuse the others for the same reasons. What a bundle does that is all about one
page cannot be seen from another one.
-/

namespace PaneLayout

variable {α : Type}

namespace Document

/-- The document `e` has the pages of `d` as well, whatever they show. -/
structure Parallels (d e : Document α) : Prop extends d.Resembles e where
  pages : ∀ v, e.pages.contains v = d.pages.contains v

variable {d e d' e' : Document α}

theorem Parallels.refl (d : Document α) : d.Parallels d := ⟨.refl d, fun _ => rfl⟩

theorem Resembles.contains_eq (h : d.Resembles e) (id : SectionId) :
    e.widgets.contains id = d.widgets.contains id := by
  have same := congrArg Option.isSome (h.owned id)
  rw [Option.isSome_map, Option.isSome_map] at same
  exact same

/-! ## Bundles -/

theorem Parallels.takes_iff (h : d.Parallels e) (m : Mutation α) : e.Takes m ↔ d.Takes m := by
  cases m with
  | setLayout view layout => simp only [Takes, h.pages, h.views]
  | setLink owner t => simp only [Takes, h.contains_eq]
  | setSectionInfo owner title description => simp only [Takes, h.contains_eq]

theorem Parallels.applied {ns : List (Mutation α)} (h : d.Parallels e) (left : d.Applied ns d')
    (right : e.Applied ns e') : d'.Parallels e' where
  tables := by rw [left.tables, right.tables, h.tables]
  views := by rw [left.views, right.views, h.views]
  owned id := (right.table_eq id).trans ((h.owned id).trans (left.table_eq id).symm)
  pages v := by
    rw [Bool.eq_iff_iff, left.pages, right.pages, SortedMap.contains_insertAll,
      SortedMap.contains_insertAll, h.pages]

theorem Parallels.updateWidget_error (h : d.Parallels e) {id : SectionId}
    {f g : WidgetInfo → WidgetInfo} {reason : String} (refused : d.updateWidget id f = .error reason) :
    e.updateWidget id g = .error reason := by
  unfold updateWidget at refused ⊢
  have owned := h.owned id
  cases hd : d.widgets.get? id with
  | some w =>
    rw [hd] at refused
    cases refused
  | none =>
    rw [widget?, widget?, hd, Option.map_none, Option.map_eq_none_iff] at owned
    rw [owned]
    rw [hd] at refused
    exact refused

theorem Parallels.applyOne_error (h : d.Parallels e) {m : Mutation α} {reason : String}
    (refused : d.applyOne m = .error reason) : e.applyOne m = .error reason := by
  cases m with
  | setLayout view layout =>
    rw [applyOne, applyLayout] at refused ⊢
    rw [h.pages, h.views]
    split at refused
    · next unknown => rw [if_pos unknown, ← refused]
    · next known =>
      rw [if_neg known]
      split at refused
      · exact refused
      · cases refused
  | setLink owner t =>
    rw [applyOne] at refused ⊢
    rw [h.contains_eq]
    split at refused
    · next there =>
      rw [if_pos there]
      exact h.updateWidget_error refused
    · next gone => rw [if_neg gone, ← refused]
  | setSectionInfo owner title description => exact h.updateWidget_error refused

/-- Both documents take the same beginning of a bundle, and answer alike. -/
theorem Parallels.applyFrom (h : d.Parallels e) (i : Nat) (ms : List (Mutation α)) :
    ∃ ns answer d' e', d.applyFrom none i ms = (answer, d') ∧ e.applyFrom none i ms = (answer, e') ∧
      ns <+: ms ∧ (∀ m ∈ ns, d.Takes m) ∧ d.Applied ns d' ∧ e.Applied ns e' ∧
      (answer = .ok () → ns = ms) := by
  induction ms generalizing d e i with
  | nil =>
    exact ⟨[], .ok (), d, e, rfl, rfl, List.prefix_rfl, List.forall_mem_nil _, applied_nil d,
      applied_nil e, fun _ => rfl⟩
  | cons m ms ih =>
    rcases d.applyOne_cases m with ⟨taken, d₁, run, left⟩ | ⟨refused, reason, run⟩
    · rcases e.applyOne_cases m with ⟨-, e₁, run', right⟩ | ⟨refused, -⟩
      · obtain ⟨ns, answer, d', e', rest, rest', le, all, left', right', whole⟩ :=
          ih (h.applied left right) (i + 1)
        refine ⟨m :: ns, answer, d', e', ?_, ?_, List.cons_prefix_cons.2 ⟨rfl, le⟩,
          List.forall_mem_cons.2 ⟨taken, fun n hn => (Document.takes_iff taken left n).1 (all n hn)⟩,
          left.append left', right.append right', fun ok => by rw [whole ok]⟩
        · rw [Document.applyFrom, run]
          exact rest
        · rw [Document.applyFrom, run']
          exact rest'
      · exact absurd ((h.takes_iff m).2 taken) refused
    · refine ⟨[], .error (.rejected i reason), d, e, ?_, ?_, List.nil_prefix,
        List.forall_mem_nil _, applied_nil d, applied_nil e, fun ok => by cases ok⟩
      · rw [Document.applyFrom, run]
        rfl
      · rw [Document.applyFrom, h.applyOne_error run]
        rfl

end Document

/-! ## One page -/

/-- The mutation is about the page `view`: it sets the page, or a widget on it. -/
def Mutation.OnPage (d : Document α) (view : ViewRef) : Mutation α → Prop
  | .setLayout v _ => v = view
  | .setLink owner _ | .setSectionInfo owner _ _ => d.widgetViews.get? owner = some view

theorem Mutation.OnPage.touch {d : Document α} {view : ViewRef} {m : Mutation α}
    (h : m.OnPage d view) {id : SectionId} (other : d.widgetViews.get? id ≠ some view)
    (w : WidgetInfo) : Mutation.touch id w m = w := by
  cases m with
  | setLayout v layout => rfl
  | setLink owner t =>
    refine if_neg ?_
    rintro rfl
    exact other h
  | setSectionInfo owner title description =>
    refine if_neg ?_
    rintro rfl
    exact other h

theorem Mutation.OnPage.congr {d e : Document α} {view : ViewRef} {m : Mutation α}
    (h : m.OnPage d view) (views : e.widgetViews = d.widgetViews) : m.OnPage e view := by
  cases m with
  | setLayout v layout => exact h
  | setLink owner t =>
    rw [OnPage, views]
    exact h
  | setSectionInfo owner title description =>
    rw [OnPage, views]
    exact h

/-- A bundle whose page shows what is on it is all about this page. -/
theorem Plan.bundle_onPage {d : Document α} {plan : Plan α} {ss : List SectionId} {view : ViewRef}
    (on : ∀ id ∈ ss, d.widgetViews.get? id = some view) (page : Native α SectionId)
    (tuples : SortedMap Nat LinkTuple) : ∀ m ∈ plan.bundle ss view page tuples, m.OnPage d view := by
  intro m hm
  rcases List.mem_cons.1 hm with rfl | hm
  · rfl
  · rcases List.mem_append.1 hm with hm | hm
    · obtain ⟨i, t, j, -, hj, rfl⟩ := Mutation.mem_links.1 hm
      exact on j (List.mem_of_getElem? hj)
    · obtain ⟨i, a, b, j, -, hj, rfl⟩ := Mutation.mem_texts hm
      exact on j (List.mem_of_getElem? hj)

namespace Document

/-- The document `d'` is `d` after mutations `ns` that are all about the page `view`. -/
structure Rewritten (d : Document α) (view : Option ViewRef) (ns : List (Mutation α))
    (d' : Document α) : Prop where
  about : ∀ m ∈ ns, ∃ v, view = some v ∧ m.OnPage d v
  widgets : ∀ id, d'.widget? id = (d.widget? id).map (Mutation.touchAll ns id)
  layouts : d'.pages = d.pages.insertAll (ns.filterMap Mutation.page?)
  views : d'.widgetViews = d.widgetViews
  tables : d'.tables = d.tables
  pages : ∀ v, d'.pages.contains v = d.pages.contains v
  calm : d'.rejectMutationAt = none

/-- Nothing that is seen from the page `v` differs: the documents are alike, and equal on it. -/
structure SeenFrom (v : ViewRef) (d e : Document α) : Prop extends d.Parallels e where
  own : ∀ id, d.widgetViews.get? id = some v → e.widget? id = d.widget? id

theorem SeenFrom.refl (v : ViewRef) (d : Document α) : d.SeenFrom v d := ⟨.refl d, fun _ _ => rfl⟩

variable {d d' : Document α} {view : Option ViewRef} {ns : List (Mutation α)}

theorem rewritten_of_read (read : d.OnlyRead d') (calm : d.rejectMutationAt = none)
    (view : Option ViewRef) : d.Rewritten view [] d' := by
  unfold OnlyRead at read
  rw [read]
  exact ⟨List.forall_mem_nil _, (applied_nil d).widgets, rfl, rfl, rfl, fun _ => rfl, calm⟩

theorem rewritten_of_applied {e : Document α} {v : ViewRef} (read : d.OnlyRead e)
    (applied : e.bundling.Applied ns d') (taken : ∀ m ∈ ns, e.Takes m)
    (about : ∀ m ∈ ns, m.OnPage d v) : d.Rewritten (some v) ns d' := by
  unfold OnlyRead at read
  have known : ∀ u, d'.pages.contains u = e.pages.contains u := by
    intro u
    rw [Bool.eq_iff_iff, applied.pages, SortedMap.contains_insertAll]
    refine or_iff_left_of_imp fun set => ?_
    obtain ⟨x, hx, rfl⟩ := List.mem_map.1 set
    obtain ⟨m, hm, page⟩ := List.mem_filterMap.1 hx
    cases m with
    | setLayout w layout =>
      obtain rfl := Option.some.inj page
      exact (taken _ hm).1
    | setLink owner t => cases page
    | setSectionInfo owner title description => cases page
  rw [read] at applied known
  exact ⟨fun m hm => ⟨v, rfl, about m hm⟩, applied.widgets, applied.pages, applied.views,
    applied.tables, known, applied.rejecting⟩

namespace Rewritten

variable (h : d.Rewritten view ns d')
include h

theorem touchAll_of_other {id : SectionId} (other : d.widgetViews.get? id ≠ view) (w : WidgetInfo) :
    Mutation.touchAll ns id w = w := by
  refine Mutation.touchAll_of_untouched (fun m hm w => ?_) w
  obtain ⟨v, rfl, on⟩ := h.about m hm
  exact on.touch other w

theorem page_of_mem {v : ViewRef} (set : v ∈ (ns.filterMap Mutation.page?).map (·.1)) :
    view = some v := by
  obtain ⟨x, hx, rfl⟩ := List.mem_map.1 set
  obtain ⟨m, hm, page⟩ := List.mem_filterMap.1 hx
  obtain ⟨v, rfl, on⟩ := h.about m hm
  cases m with
  | setLayout w layout =>
    obtain rfl := Option.some.inj page
    exact congrArg some on.symm
  | setLink owner t => cases page
  | setSectionInfo owner title description => cases page

theorem seenFrom {v : ViewRef} (other : view ≠ some v) : d.SeenFrom v d' where
  tables := h.tables
  views := h.views
  owned id := by
    rw [h.widgets, Option.map_map]
    congr 1
    funext w
    exact Mutation.table_touchAll ns id w
  pages := h.pages
  own id on := by
    have apart : d.widgetViews.get? id ≠ view := fun same => other (same.symm.trans on)
    rw [h.widgets]
    cases d.widget? id with
    | none => rfl
    | some w => rw [Option.map_some, h.touchAll_of_other apart]

end Rewritten

/-- Mutations about one page and mutations about another one may change places. -/
theorem rewritten_comm {u v : Option ViewRef} {ms : List (Mutation α)} {d₁ d₁₂ d₂ d₂₁ : Document α}
    (apart : u ≠ v) (h₁ : d.Rewritten u ms d₁) (h₁₂ : d₁.Rewritten v ns d₁₂)
    (h₂ : d.Rewritten v ns d₂) (h₂₁ : d₂.Rewritten u ms d₂₁) :
    d₁₂.widgets = d₂₁.widgets ∧ d₁₂.pages = d₂₁.pages ∧ d₁₂.widgetViews = d₂₁.widgetViews ∧
      d₁₂.tables = d₂₁.tables := by
  refine ⟨SortedMap.ext_get? fun id => ?_, SortedMap.ext_get? fun w => ?_, ?_, ?_⟩
  · change d₁₂.widget? id = d₂₁.widget? id
    rw [h₁₂.widgets, h₁.widgets, h₂₁.widgets, h₂.widgets]
    cases d.widget? id with
    | none => rfl
    | some w =>
      simp only [Option.map_some]
      by_cases here : d.widgetViews.get? id = u
      · have other : d.widgetViews.get? id ≠ v := fun same => apart (here.symm.trans same)
        rw [h₂.touchAll_of_other other, h₂.touchAll_of_other other]
      · rw [h₁.touchAll_of_other here, h₁.touchAll_of_other here]
  · rw [h₁₂.layouts, h₂₁.layouts]
    by_cases here : w ∈ (ns.filterMap Mutation.page?).map (·.1)
    · have there : w ∉ (ms.filterMap Mutation.page?).map (·.1) := fun set =>
        apart ((h₁.page_of_mem set).trans (h₂.page_of_mem here).symm)
      rw [SortedMap.get?_insertAll_of_notMem there, h₂.layouts]
      refine SortedMap.get?_insertAll_congr _ ?_
      rw [h₁.layouts, SortedMap.get?_insertAll_of_notMem there]
    · rw [SortedMap.get?_insertAll_of_notMem here, h₁.layouts]
      refine (SortedMap.get?_insertAll_congr _ ?_).symm
      rw [h₂.layouts, SortedMap.get?_insertAll_of_notMem here]
  · rw [h₁₂.views, h₁.views, h₂₁.views, h₂.views]
  · rw [h₁₂.tables, h₁.tables, h₂₁.tables, h₂.tables]

end Document
end PaneLayout
