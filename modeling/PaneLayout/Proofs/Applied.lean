import PaneLayout.Document.Basic
import PaneLayout.Proofs.Run
import PaneLayout.Proofs.SortedMap

set_option autoImplicit false

/-!
# Bundles on a document

Whether a mutation is accepted depends on which widgets and pages there are and on which page each
widget is. No mutation changes that, so a bundle is accepted exactly if each of its mutations is,
and what it does to a widget is what its mutations do to it one after the other.
-/

namespace PaneLayout

variable {α : Type}

/-- What a mutation does to the widget of section `id`. -/
def Mutation.touch (id : SectionId) (w : WidgetInfo) : Mutation α → WidgetInfo
  | .setLayout _ _ => w
  | .setLink owner t => if owner = id then w.withLink (some t) else w
  | .setSectionInfo owner title description =>
    if owner = id then w.withTexts title description else w

def Mutation.touchAll (ms : List (Mutation α)) (id : SectionId) (w : WidgetInfo) : WidgetInfo :=
  ms.foldl (touch id) w

/-- Nothing that happens to a widget between a mutation and the same one again depends on the
first. -/
theorem Mutation.touch_touch_touch (m n : Mutation α) (id : SectionId) (w : WidgetInfo) :
    touch id (touch id (touch id w m) n) m = touch id (touch id w n) m := by
  cases m with
  | setLayout view layout => rfl
  | setLink owner t =>
    by_cases own : owner = id
    · cases n with
      | setLayout view layout => simp only [touch, if_pos own, WidgetInfo.withLink]
      | setLink owner' t' =>
        simp only [touch, if_pos own]
        split <;> rfl
      | setSectionInfo owner' title description =>
        simp only [touch, if_pos own]
        split <;> rfl
    · simp only [touch, if_neg own]
  | setSectionInfo owner title description =>
    by_cases own : owner = id
    · have again (w : WidgetInfo) (a b : Option String) :
          ((w.withTexts title description).withTexts a b).withTexts title description =
            (w.withTexts a b).withTexts title description := by
        cases title <;> cases description <;> rfl
      cases n with
      | setLayout view layout =>
        simp only [touch, if_pos own]
        exact again w none none
      | setLink owner' t' =>
        simp only [touch, if_pos own]
        split
        · exact again (w.withLink (some t')) none none
        · exact again w none none
      | setSectionInfo owner' title' description' =>
        simp only [touch, if_pos own]
        split
        · exact again w title' description'
        · exact again w none none
    · simp only [touch, if_neg own]

/-- A bundle makes up for whatever its mutations did before it. -/
theorem Mutation.touchAll_touchAll {ms ns : List (Mutation α)} (sub : ns ⊆ ms) (id : SectionId)
    (w : WidgetInfo) : touchAll ms id (touchAll ns id w) = touchAll ms id w := by
  have absorbed : ∀ m ∈ ms, ∀ w, touchAll ms id (touch id w m) = touchAll ms id w := by
    clear sub
    induction ms with
    | nil => exact fun m none => nomatch none
    | cons n ms ih =>
      intro m hm w
      change touchAll ms id (touch id (touch id w m) n) = touchAll ms id (touch id w n)
      rcases List.mem_cons.1 hm with rfl | hm
      · exact congrArg (touchAll ms id) (touch_touch_touch m (.setLayout ⟨0⟩ (.leaf id)) id w)
      · rw [← ih m hm (touch id (touch id w m) n), touch_touch_touch, ih m hm]
  induction ns generalizing w with
  | nil => rfl
  | cons n ns ih =>
    obtain ⟨hn, sub⟩ := List.cons_subset.1 sub
    exact (ih sub (touch id w n)).trans (absorbed n hn w)

def Mutation.page? : Mutation α → Option (ViewRef × Option (Native α SectionId))
  | .setLayout view layout => some (view, some layout)
  | _ => none

namespace Document

/-- The document takes the mutation. -/
def Takes (d : Document α) : Mutation α → Prop
  | .setLayout view layout => d.pages.contains view = true ∧
    ∀ id ∈ layout.leaves, d.widgetViews.get? id = some view
  | .setLink owner t => d.widgets.contains t.source = true ∧ d.widgets.contains owner = true
  | .setSectionInfo owner _ _ => d.widgets.contains owner = true

/-- The document `e` is `d` after the bundle `ms`. -/
structure Applied (d : Document α) (ms : List (Mutation α)) (e : Document α) : Prop where
  widgets : ∀ id, e.widget? id = (d.widget? id).map (Mutation.touchAll ms id)
  pages : e.pages = d.pages.insertAll (ms.filterMap Mutation.page?)
  views : e.widgetViews = d.widgetViews
  tables : e.tables = d.tables
  creates : e.createCalls = d.createCalls
  applies : e.applyCalls = d.applyCalls
  last : e.lastSection = d.lastSection
  lastView : e.lastView = d.lastView
  failing : e.failCreateAt = d.failCreateAt
  rejecting : e.rejectMutationAt = d.rejectMutationAt

theorem applied_nil (d : Document α) : d.Applied [] d where
  widgets := fun id => by cases d.widget? id <;> simp [Mutation.touchAll]
  pages := rfl
  views := rfl
  tables := rfl
  creates := rfl
  applies := rfl
  last := rfl
  lastView := rfl
  failing := rfl
  rejecting := rfl

theorem Applied.append {d e f : Document α} {ms ns : List (Mutation α)} (h : d.Applied ms e)
    (h' : e.Applied ns f) : d.Applied (ms ++ ns) f where
  widgets := by
    intro id
    rw [h'.widgets, h.widgets, Option.map_map]
    congr 1
    funext w
    exact (List.foldl_append).symm
  pages := by
    rw [h'.pages, h.pages, List.filterMap_append]
    exact (List.foldl_append).symm
  views := h'.views.trans h.views
  tables := h'.tables.trans h.tables
  creates := h'.creates.trans h.creates
  applies := h'.applies.trans h.applies
  last := h'.last.trans h.last
  lastView := h'.lastView.trans h.lastView
  failing := h'.failing.trans h.failing
  rejecting := h'.rejecting.trans h.rejecting

theorem Applied.contains_iff {d e : Document α} {ms : List (Mutation α)} (h : d.Applied ms e)
    (id : SectionId) : e.widgets.contains id = d.widgets.contains id := by
  have same := congrArg Option.isSome (h.widgets id)
  rw [Option.isSome_map] at same
  exact same

/-! ## One mutation -/

theorem applyLayout_cases (d : Document α) (view : ViewRef) (layout : Native α SectionId) :
    (d.Takes (.setLayout view layout) ∧
      d.applyLayout view layout = .ok { d with pages := d.pages.insert view (some layout) }) ∨
    (¬ d.Takes (.setLayout view layout) ∧ ∃ reason, d.applyLayout view layout = .error reason) := by
  unfold applyLayout
  split
  · next unknown =>
    refine .inr ⟨fun takes => ?_, _, rfl⟩
    simp [takes.1] at unknown
  · next known =>
    cases hf : layout.leaves.find? fun id => d.widgetViews.get? id != some view with
    | some id =>
      refine .inr ⟨fun takes => ?_, _, rfl⟩
      have off := List.find?_some hf
      have on := takes.2 id (List.mem_of_find?_eq_some hf)
      simp [on] at off
    | none =>
      refine .inl ⟨⟨by simpa using known, fun id hid => ?_⟩, rfl⟩
      have on := List.find?_eq_none.1 hf id hid
      simpa using on

theorem updateWidget_applied {d : Document α} {id : SectionId} (m : Mutation α)
    (f : WidgetInfo → WidgetInfo) (own : ∀ w, Mutation.touch id w m = f w)
    (other : ∀ j w, j ≠ id → Mutation.touch j w m = w) (page : m.page? = none)
    (h : d.widgets.contains id = true) :
    ∃ e, d.updateWidget id f = .ok e ∧ d.Applied [m] e := by
  obtain ⟨w, hw⟩ := Option.isSome_iff_exists.1 h
  refine ⟨{ d with widgets := d.widgets.insert id (f w) }, by simp only [updateWidget, hw], ?_⟩
  constructor
  case widgets =>
    intro j
    change (d.widgets.insert id (f w)).get? j = (d.widgets.get? j).map (Mutation.touch j · m)
    rw [SortedMap.get?_insert]
    split
    · next same => rw [same, hw, Option.map_some, own]
    · next ne =>
      cases d.widgets.get? j with
      | none => rfl
      | some v => rw [Option.map_some, other j v ne]
  case pages =>
    rw [List.filterMap_cons_none page]
    rfl
  all_goals rfl

theorem updateWidget_unknown {d : Document α} {id : SectionId} (f : WidgetInfo → WidgetInfo)
    (h : ¬ d.widgets.contains id = true) : ∃ reason, d.updateWidget id f = .error reason := by
  have absent : d.widgets.get? id = none := by simpa [SortedMap.contains] using h
  exact ⟨_, by simp only [updateWidget, absent]; rfl⟩

theorem applyOne_cases (d : Document α) (m : Mutation α) :
    (d.Takes m ∧ ∃ e, d.applyOne m = .ok e ∧ d.Applied [m] e) ∨
    (¬ d.Takes m ∧ ∃ reason, d.applyOne m = .error reason) := by
  cases m with
  | setLayout view layout =>
    rcases d.applyLayout_cases view layout with ⟨takes, run⟩ | refused
    · refine .inl ⟨takes, _, run, ?_⟩
      constructor
      case widgets => exact d.applied_nil.widgets
      all_goals rfl
    · exact .inr refused
  | setLink owner t =>
    rw [applyOne]
    by_cases source : d.widgets.contains t.source = true
    · rw [if_pos source]
      by_cases owned : d.widgets.contains owner = true
      · refine .inl ⟨⟨source, owned⟩, updateWidget_applied _ _ ?_ ?_ rfl owned⟩
        · intro w
          exact if_pos rfl
        · intro j w ne
          exact if_neg fun same => ne same.symm
      · exact .inr ⟨fun takes => owned takes.2, updateWidget_unknown _ owned⟩
    · rw [if_neg source]
      exact .inr ⟨fun takes => source takes.1, _, rfl⟩
  | setSectionInfo owner title description =>
    rw [applyOne]
    by_cases owned : d.widgets.contains owner = true
    · refine .inl ⟨owned, updateWidget_applied _ _ ?_ ?_ rfl owned⟩
      · intro w
        exact if_pos rfl
      · intro j w ne
        exact if_neg fun same => ne same.symm
    · exact .inr ⟨owned, updateWidget_unknown _ owned⟩

/-! ## Bundles -/

/-- A mutation that is taken opens no page. -/
theorem contains_pages_iff {d e : Document α} {m : Mutation α} (taken : d.Takes m)
    (h : d.Applied [m] e) (v : ViewRef) :
    e.pages.contains v = true ↔ d.pages.contains v = true := by
  rw [h.pages, SortedMap.contains_insertAll]
  refine or_iff_left_of_imp fun set => ?_
  cases m with
  | setLayout view layout =>
    obtain rfl : v = view := by simpa [Mutation.page?] using set
    exact taken.1
  | setLink owner t => simp [Mutation.page?] at set
  | setSectionInfo owner title description => simp [Mutation.page?] at set

/-- What a document takes does not depend on what it took before. -/
theorem takes_iff {d e : Document α} {m : Mutation α} (taken : d.Takes m) (h : d.Applied [m] e)
    (m' : Mutation α) : e.Takes m' ↔ d.Takes m' := by
  have pages := contains_pages_iff taken h
  cases m' with
  | setLayout view layout =>
    simp only [Takes, pages, h.views]
  | setLink owner t =>
    simp only [Takes, h.contains_iff]
  | setSectionInfo owner title description =>
    simp only [Takes, h.contains_iff]

/-- The document after all of the mutations, if none is refused. -/
def applyAll (d : Document α) (ms : List (Mutation α)) : Except String (Document α) :=
  ms.foldlM applyOne d

section

variable {d e : Document α} {ms : List (Mutation α)} {m : Mutation α}

theorem applyAll_cons (d : Document α) (m : Mutation α) (ms : List (Mutation α)) :
    d.applyAll (m :: ms) = (d.applyOne m).bind (applyAll · ms) := List.foldlM_cons

theorem applyOne_error_iff : (∃ reason, d.applyOne m = .error reason) ↔ ¬ d.Takes m := by
  rcases d.applyOne_cases m with ⟨takes, e, run, -⟩ | ⟨refused, reason, run⟩
  · refine iff_of_false ?_ (not_not_intro takes)
    rintro ⟨reason, refusal⟩
    rw [run] at refusal
    cases refusal
  · exact iff_of_true ⟨reason, run⟩ refused

/-- A document that was reached takes what the first one takes. -/
theorem takes_iff_of_applyAll (all : d.applyAll ms = .ok e) (m : Mutation α) :
    e.Takes m ↔ d.Takes m := by
  induction ms generalizing d with
  | nil =>
    obtain rfl : d = e := Except.ok.inj all
    rfl
  | cons m₁ ms ih =>
    rw [applyAll_cons] at all
    rcases d.applyOne_cases m₁ with ⟨takes, d₁, run, applied⟩ | ⟨-, reason, run⟩
    · rw [run] at all
      exact (ih all).trans (takes_iff takes applied m)
    · rw [run] at all
      cases all

theorem applied_of_applyAll (all : d.applyAll ms = .ok e) :
    (∀ m ∈ ms, d.Takes m) ∧ d.Applied ms e := by
  induction ms generalizing d with
  | nil =>
    obtain rfl : d = e := Except.ok.inj all
    exact ⟨fun m none => (List.not_mem_nil none).elim, d.applied_nil⟩
  | cons m ms ih =>
    rw [applyAll_cons] at all
    rcases d.applyOne_cases m with ⟨takes, d₁, run, applied⟩ | ⟨-, reason, run⟩
    · rw [run] at all
      obtain ⟨later, applied'⟩ := ih all
      refine ⟨List.forall_mem_cons.2 ⟨takes, fun m' hm' => ?_⟩, applied.append applied'⟩
      exact (takes_iff takes applied m').1 (later m' hm')
    · rw [run] at all
      cases all

/-- The mutations from position `i` on are all applied, or those before one of them that is not. -/
theorem applyFrom_exact (d : Document α) (reject : Option Nat) (i : Nat) (ms : List (Mutation α)) :
    (∃ e, d.applyFrom reject i ms = (.ok (), e) ∧ d.applyAll ms = .ok e ∧
      ∀ j < ms.length, reject ≠ some (i + j)) ∨
    ∃ k m reason e, d.applyFrom reject i ms = (.error (.rejected (i + k) reason), e) ∧
      d.applyAll (ms.take k) = .ok e ∧ (∀ j < k, reject ≠ some (i + j)) ∧ ms[k]? = some m ∧
      (reject = some (i + k) ∧ reason = "Injected rejection" ∨
        reject ≠ some (i + k) ∧ e.applyOne m = .error reason) := by
  induction ms generalizing d i with
  | nil => exact .inl ⟨d, rfl, rfl, by simp⟩
  | cons m ms ih =>
    rw [applyFrom]
    by_cases injected : reject = some i
    · rw [if_pos injected]
      exact .inr ⟨0, m, _, d, rfl, rfl, by simp, rfl, .inl ⟨injected, rfl⟩⟩
    · rw [if_neg injected]
      -- Positions are counted from `i` before the first mutation is applied, from `i + 1` after.
      have shift (k : Nat) : i + 1 + k = i + (k + 1) := by omega
      have clear {k : Nat} (later : ∀ j < k, reject ≠ some (i + 1 + j)) :
          ∀ j < k + 1, reject ≠ some (i + j) := by
        simp only [shift] at later
        exact Nat.forall_lt_succ_left.2 ⟨injected, later⟩
      cases taken : d.applyOne m with
      | error reason =>
        exact .inr ⟨0, m, reason, d, rfl, rfl, by simp, rfl, .inr ⟨injected, taken⟩⟩
      | ok d₁ =>
        have step (ns : List (Mutation α)) : d.applyAll (m :: ns) = d₁.applyAll ns := by
          rw [applyAll_cons, taken]
          rfl
        rcases ih d₁ (i + 1) with ⟨e, run, all, later⟩ | ⟨k, n, reason, e, run, before, later, rest⟩
        · exact .inl ⟨e, run, (step ms).trans all, clear later⟩
        · rw [shift] at run rest
          exact .inr ⟨k + 1, n, reason, e, run, (step _).trans before, clear later, rest⟩

end

/-- A bundle is applied as a whole, or up to a mutation that is refused. -/
theorem applyFrom_cases (d : Document α) (reject : Option Nat) (i : Nat) (ms : List (Mutation α)) :
    (∃ e, d.applyFrom reject i ms = (.ok (), e) ∧ (∀ m ∈ ms, d.Takes m) ∧ d.Applied ms e) ∨
    (∃ f ns e, d.applyFrom reject i ms = (.error f, e) ∧ ns <+: ms ∧ d.Applied ns e ∧
      (reject ≠ none ∨ ∃ m ∈ ms, ¬ d.Takes m)) := by
  rcases d.applyFrom_exact reject i ms with
    ⟨e, run, all, -⟩ | ⟨k, m, reason, e, run, before, -, here, why⟩
  · exact .inl ⟨e, run, applied_of_applyAll all⟩
  · refine .inr ⟨_, ms.take k, e, run, ms.take_prefix k, (applied_of_applyAll before).2, ?_⟩
    rcases why with ⟨due, -⟩ | ⟨-, refusal⟩
    · exact .inl (due ▸ Option.some_ne_none _)
    · have refused := applyOne_error_iff.1 ⟨reason, refusal⟩
      rw [takes_iff_of_applyAll before] at refused
      exact .inr ⟨m, List.mem_of_getElem? here, refused⟩

/-- A fault names the mutation that was refused, and those before it have been applied. -/
theorem applyFrom_error {d e : Document α} {reject : Option Nat} {i : Nat} {ms : List (Mutation α)}
    {f : Fault} (h : d.applyFrom reject i ms = (.error f, e)) : ∃ k reason,
    f = .rejected (i + k) reason ∧ k < ms.length ∧ (ms.take k).foldlM applyOne d = .ok e := by
  rcases d.applyFrom_exact reject i ms with
    ⟨e', run, -⟩ | ⟨k, m, reason, e', run, before, -, here, -⟩
  · rw [run] at h
    cases h
  · rw [run] at h
    cases h
    exact ⟨k, reason, rfl, (List.getElem?_eq_some_iff.1 here).1, before⟩

/-- A bundle keeps what each mutation keeps that is accepted. -/
theorem applyFrom_keeps {P : Document α → Prop}
    (step : ∀ {d e : Document α} {m : Mutation α}, P d → d.applyOne m = .ok e → P e)
    {d : Document α} (h : P d) (reject : Option Nat) (i : Nat) (ms : List (Mutation α)) :
    P (d.applyFrom reject i ms).2 := by
  induction ms generalizing d i with
  | nil => exact h
  | cons m ms ih =>
    rw [applyFrom]
    split
    · exact h
    · rcases run : d.applyOne m with reason | e
      · exact h
      · exact ih (step h run) (i + 1)

/-- The document as it starts on a bundle: the call is counted, an injected rejection used up. -/
def bundling (d : Document α) : Document α :=
  { d with applyCalls := d.applyCalls + 1, rejectMutationAt := none }

theorem applyMutations_error {d e : Document α} {ms : List (Mutation α)} {f : Fault}
    (h : applyMutations ms d = (.error f, e)) : ∃ k reason, f = .rejected k reason ∧
    k < ms.length ∧ (ms.take k).foldlM applyOne d.bundling = .ok e := by
  obtain ⟨k, reason, hf, bound, before⟩ := applyFrom_error h
  exact ⟨k, reason, by rw [hf, Nat.zero_add], bound, before⟩

theorem applyMutations_cases (d : Document α) (ms : List (Mutation α)) :
    (∃ e, applyMutations ms d = (.ok (), e) ∧ (∀ m ∈ ms, d.Takes m) ∧ d.bundling.Applied ms e) ∨
    (∃ f ns e, applyMutations ms d = (.error f, e) ∧ ns <+: ms ∧ d.bundling.Applied ns e ∧
      (d.rejectMutationAt ≠ none ∨ ∃ m ∈ ms, ¬ d.Takes m)) :=
  d.bundling.applyFrom_cases d.rejectMutationAt 0 ms

/-- Whichever way a bundle ends, a beginning of it has been applied. -/
theorem exists_applied (d : Document α) (ms : List (Mutation α)) :
    ∃ ns, ns <+: ms ∧ d.bundling.Applied ns (applyMutations ms d).2 := by
  rcases d.applyMutations_cases ms with ⟨e, run, -, applied⟩ | ⟨f, ns, e, run, le, applied, -⟩
  · rw [run]
    exact ⟨ms, List.prefix_rfl, applied⟩
  · rw [run]
    exact ⟨ns, le, applied⟩

end Document
end PaneLayout
