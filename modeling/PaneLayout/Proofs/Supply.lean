import PaneLayout.Proofs.Consistency

set_option autoImplicit false

/-!
# The supply of numbers

Sections and pages are numbered by counters of 32 bits, which start past the greatest numbers in
use and never start over: a creation that needs a number when there is none left is not answered.
So what is answered is new, in every document that can come about, to the end of the numbers.
-/

namespace PaneLayout.Document

variable {α : Type} {d e : Document α}

/-- A creation that succeeded: the page it was asked for, its answer, and the document before and
after it. -/
structure Served (α : Type) where
  before : Document α
  view : Option ViewRef
  widget : CreatedWidget
  after : Document α

def Call.served (d : Document α) : Call α → List (Served α)
  | create table type view => match client.createWidget table type view d with
    | (.ok w, e) => [⟨d, view, w, e⟩]
    | (.error _, _) => []
  | apply _ => []

/-- The creations that succeed when `cs` are called one after the other. -/
def served (d : Document α) : List (Call α) → List (Served α)
  | [] => []
  | c :: cs => c.served d ++ served (c.after d) cs

/-- The new widget is apart from all that was there. -/
structure Served.Safe (s : Served α) : Prop where
  valid : s.widget.id.isValid = true
  unused : s.before.widgets.contains s.widget.id = false
  kept : ∀ id w, s.before.widget? id = some w → s.after.widget? id = some w
  placed : s.after.widgetViews.get? s.widget.id = some s.widget.view
  opened : s.view = none → s.before.pages.contains s.widget.view = false

theorem Adds.safe {table : TableRef} {type : WidgetType} {view : Option ViewRef}
    {w : CreatedWidget} (h : d.Adds table type view w e) : Served.Safe ⟨d, view, w, e⟩ where
  valid := h.valid
  unused := h.unused
  kept := by
    intro id v hv
    have other : id ≠ w.id := by
      rintro rfl
      cases h.unused.symm.trans (Option.isSome_iff_exists.2 ⟨v, hv⟩)
    change e.widgets.get? id = some v
    rw [h.widgets, SortedMap.get?_insert_of_ne _ _ other]
    exact hv
  placed := by
    change e.widgetViews.get? w.id = some w.view
    rw [h.views, SortedMap.get?_insert_self]
  opened := h.opened

theorem Call.served_safe (numbered : d.Numbered) (paged : d.Paged) (c : Call α) :
    ∀ s ∈ c.served d, s.Safe := by
  cases c with
  | create table type view =>
    intro s hs
    change s ∈ (match Document.createWidget table type view d with
      | (.ok w, e) => [(⟨d, view, w, e⟩ : Served α)]
      | (.error _, _) => []) at hs
    rcases run : Document.createWidget table type view d with ⟨f | w, e⟩
    · rw [run] at hs
      cases hs
    · rw [run] at hs
      obtain rfl := List.mem_singleton.1 hs
      exact (adds_of_ok numbered paged run).safe
  | apply ms => exact fun s none => nomatch none

theorem Reachable.served_safe (reach : d.Reachable) (cs : List (Call α)) :
    ∀ s ∈ d.served cs, s.Safe := by
  induction cs generalizing d with
  | nil => exact fun s none => nomatch none
  | cons c cs ih =>
    exact List.forall_mem_append.2
      ⟨c.served_safe reach.numbered reach.paged, ih (reach.after c)⟩

/-- On what a fixture describes, and after any calls, new widgets are apart from the old ones. -/
theorem created_apart {f : DocumentFixture α} (built : ofFixture f = .ok d) (cs : List (Call α)) :
    ∀ s ∈ d.served cs, s.Safe :=
  (reachable_of_fixture built).served_safe cs

/-- A table and a page with a widget for each of `ids`. -/
def onePage (ids : List UInt32) : DocumentFixture Rat :=
  ⟨[⟨"Orders", [⟨"Total", "Numeric"⟩], none⟩],
    [⟨⟨1⟩, none, ids.map fun id => .create ⟨id⟩ ⟨1⟩ .grid⟩]⟩

/-- With one number left of the sections, one of two creations is answered. -/
theorem created_apart_onePage : ∃ d, ofFixture (onePage [1, 4294967294]) = .ok d ∧
    (d.served [.create ⟨1⟩ .grid none, .create ⟨1⟩ .form (some ⟨1⟩)]).map (·.widget) =
      [⟨⟨4294967295⟩, ⟨2⟩⟩] ∧
    ∀ s ∈ d.served [.create ⟨1⟩ .grid none, .create ⟨1⟩ .form (some ⟨1⟩)], s.Safe :=
  ⟨_, rfl, by decide +kernel, created_apart (f := onePage [1, 4294967294]) rfl _⟩

end PaneLayout.Document
