import PaneLayout.Proofs.Applied

set_option autoImplicit false

/-!
# Where a bundle stops

A bundle is applied mutation by mutation, up to the first that is refused or at which a rejection
was injected. What is there afterwards is what the mutations before it have made, and nothing of
the one that was refused. The injected rejection is used up either way.
-/

namespace PaneLayout
namespace Document

variable {α : Type}

/-- Why a bundle does not get past its mutation `k`. -/
inductive Stops (d : Document α) (ms : List (Mutation α)) (k : Nat) : String → Prop where
  | injected (inside : k < ms.length) (due : d.rejectMutationAt = some k) :
      Stops d ms k "Injected rejection"
  | refused {m : Mutation α} {e : Document α} {reason : String} (here : ms[k]? = some m)
      (before : d.applyAll (ms.take k) = .ok e) (refusal : e.applyOne m = .error reason) :
      Stops d ms k reason

/-! ## Beginnings of a bundle -/

section

variable {d e : Document α} {ms : List (Mutation α)} {m : Mutation α}

theorem applyAll_append (d : Document α) (ms ns : List (Mutation α)) :
    d.applyAll (ms ++ ns) = (d.applyAll ms).bind (applyAll · ns) := List.foldlM_append

theorem take_append_cons {k : Nat} (here : ms[k]? = some m) :
    ms = ms.take k ++ m :: ms.drop (k + 1) := by
  obtain ⟨bound, rfl⟩ := List.getElem?_eq_some_iff.1 here
  rw [List.getElem_cons_drop bound, List.take_append_drop]

/-- Where all mutations can be applied, none is refused by what those before it have made. -/
theorem applyOne_ok_of_take {k : Nat} (all : d.applyAll ms = .ok e) (here : ms[k]? = some m)
    {e₁ : Document α} (before : d.applyAll (ms.take k) = .ok e₁) :
    ∃ e₂, e₁.applyOne m = .ok e₂ := by
  rw [take_append_cons here, applyAll_append, before] at all
  replace all : e₁.applyAll (m :: ms.drop (k + 1)) = .ok e := all
  rw [applyAll_cons] at all
  cases taken : e₁.applyOne m with
  | ok e₂ => exact ⟨e₂, rfl⟩
  | error reason =>
    rw [taken] at all
    cases all

theorem Stops.lt {k : Nat} {reason : String} (h : d.Stops ms k reason) : k < ms.length := by
  cases h with
  | injected inside due => exact inside
  | refused here before refusal => exact (List.getElem?_eq_some_iff.1 here).1

/-- Nothing stops a bundle at a mutation that has been applied. -/
theorem not_stops {k : Nat} (all : d.applyAll (ms.take k) = .ok e)
    (clear : ∀ j < k, d.rejectMutationAt ≠ some j) {j : Nat} (earlier : j < k) (reason : String) :
    ¬ d.Stops ms j reason := by
  intro stops
  cases stops with
  | injected inside due => exact clear j earlier due
  | refused here before refusal =>
    have at_j : (ms.take k)[j]? = some _ := (List.getElem?_take_of_lt earlier).trans here
    have take_j : (ms.take k).take j = ms.take j := by
      rw [List.take_take, Nat.min_eq_left (Nat.le_of_lt earlier)]
    rw [← take_j] at before
    obtain ⟨e₂, taken⟩ := applyOne_ok_of_take all at_j before
    rw [taken] at refusal
    cases refusal

/-! ## Calls -/

/-- No mutation depends on how many bundles there have been, or on what is injected. -/
theorem applyOne_bundling (d : Document α) (m : Mutation α) :
    d.bundling.applyOne m = (d.applyOne m).map bundling := by
  have widgets : d.bundling.widgets = d.widgets := rfl
  have updated (id : SectionId) (f : WidgetInfo → WidgetInfo) :
      d.bundling.updateWidget id f = (d.updateWidget id f).map bundling := by
    rw [updateWidget, updateWidget, widgets]
    cases d.widgets.get? id <;> rfl
  cases m with
  | setLayout view layout =>
    have pages : d.bundling.pages = d.pages := rfl
    have views : d.bundling.widgetViews = d.widgetViews := rfl
    rw [applyOne, applyOne, applyLayout, applyLayout, pages, views]
    split
    · rfl
    · cases layout.leaves.find? fun id => d.widgetViews.get? id != some view <;> rfl
  | setLink id t =>
    rw [applyOne, applyOne, updated, widgets]
    split <;> rfl
  | setSectionInfo id title description => exact updated id _

theorem applyOne_error_of_bundling {reason : String}
    (h : d.bundling.applyOne m = .error reason) : d.applyOne m = .error reason := by
  rw [applyOne_bundling] at h
  cases run : d.applyOne m with
  | ok e =>
    rw [run] at h
    cases h
  | error reason' =>
    rw [run] at h
    exact congrArg Except.error (Except.error.inj h)

theorem applyAll_bundling (d : Document α) (ms : List (Mutation α)) :
    d.bundling.applyAll ms = (d.applyAll ms).map bundling := by
  induction ms generalizing d with
  | nil => rfl
  | cons m ms ih =>
    rw [applyAll_cons, applyAll_cons, applyOne_bundling]
    cases d.applyOne m with
    | ok e => exact ih e
    | error reason => rfl

theorem applyAll_of_bundling (h : d.bundling.applyAll ms = .ok e) :
    ∃ e₁, d.applyAll ms = .ok e₁ ∧ e = e₁.bundling := by
  rw [applyAll_bundling] at h
  cases run : d.applyAll ms with
  | ok e₁ =>
    rw [run] at h
    exact ⟨e₁, rfl, (Except.ok.inj h).symm⟩
  | error reason =>
    rw [run] at h
    cases h

end

/-- A bundle is applied as a whole, or up to the first mutation at which it stops. The document is
then the one that the mutations before have made, with the call counted and no rejection left to
come. Mutations do what they do to each widget and page, and whether one is refused depends on the
document to begin with. -/
theorem applyMutations_exact (d : Document α) (ms : List (Mutation α)) :
    ((∃ e, d.applyAll ms = .ok e ∧ applyMutations ms d = (.ok (), e.bundling) ∧
      ∀ k reason, ¬ d.Stops ms k reason) ∨
    ∃ k reason e, d.applyAll (ms.take k) = .ok e ∧
      applyMutations ms d = (.error (.rejected k reason), e.bundling) ∧
      d.Stops ms k reason ∧ (d.rejectMutationAt = some k → reason = "Injected rejection") ∧
      ∀ j < k, ∀ reason, ¬ d.Stops ms j reason) ∧
    (applyMutations ms d).2.rejectMutationAt = none ∧
    ∀ ns e, d.applyAll ns = .ok e → d.Applied ns e ∧
      ∀ m, (∃ reason, e.applyOne m = .error reason) ↔ ¬ d.Takes m := by
  refine ⟨?_, ?_, fun ns e all => ⟨(applied_of_applyAll all).2, fun m => ?_⟩⟩
  · rcases d.bundling.applyFrom_exact d.rejectMutationAt 0 ms with
      ⟨e, run, all, clear⟩ | ⟨k, m, reason, e, run, before, clear, here, why⟩
    · simp only [Nat.zero_add] at clear
      obtain ⟨e, reached, rfl⟩ := applyAll_of_bundling all
      refine .inl ⟨e, reached, run, fun k reason stops => ?_⟩
      rw [← ms.take_length] at reached
      exact not_stops reached clear stops.lt reason stops
    · simp only [Nat.zero_add] at run clear why
      obtain ⟨e, reached, rfl⟩ := applyAll_of_bundling before
      refine .inr ⟨k, reason, e, reached, run, ?_, ?_, fun j => not_stops reached clear⟩
      · rcases why with ⟨due, rfl⟩ | ⟨-, refusal⟩
        · exact .injected (List.getElem?_eq_some_iff.1 here).1 due
        · exact .refused here reached (applyOne_error_of_bundling refusal)
      · rcases why with ⟨-, rfl⟩ | ⟨undue, -⟩
        · exact fun _ => rfl
        · exact fun due => absurd due undue
  · obtain ⟨ns, -, applied⟩ := d.exists_applied ms
    exact applied.rejecting
  · rw [applyOne_error_iff, takes_iff_of_applyAll all]

/-- A title for a widget that is there and one for a ghost: the first stays. -/
theorem applyMutations_exact_ghost :
    let d : Document Rat := Document.empty.addWidget ⟨1⟩ (.create ⟨7⟩ ⟨1⟩ .grid)
    let ms := [.setSectionInfo ⟨7⟩ (some "Orders") none, .setSectionInfo ⟨99⟩ (some "Ghost") none]
    ∃ e, d.applyAll [.setSectionInfo ⟨7⟩ (some "Orders") none] = .ok e ∧
      applyMutations ms d = (.error (.rejected 1 "Unknown section #99"), e.bundling) ∧
      d.Stops ms 1 "Unknown section #99" ∧ ∀ reason, ¬ d.Stops ms 0 reason := by
  intro d ms
  have answer : (applyMutations ms d).1 = .error (.rejected 1 "Unknown section #99") := rfl
  rcases (applyMutations_exact d ms).1 with
    ⟨e, -, run, -⟩ | ⟨k, reason, e, reached, run, stops, -, first⟩
  · rw [run] at answer
    cases answer
  · rw [run] at answer
    obtain ⟨rfl, rfl⟩ := Fault.rejected.inj (Except.error.inj answer)
    exact ⟨e, reached, run, stops, first 0 Nat.one_pos⟩

end Document
end PaneLayout
