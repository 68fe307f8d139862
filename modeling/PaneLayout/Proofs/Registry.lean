import PaneLayout.Proofs.SortedMap
import PaneLayout.Registry

set_option autoImplicit false

/-!
# Growing registries

A registry after some placeholders got their sections. What a name denotes does not change, a link
that can be resolved stays so, and its source stays the same as long as no placeholder is given a
second section.
-/

namespace PaneLayout

theorem NameMatch.unique?_eq_some {m : NameMatch} {j : Nat} (h : m.unique? = some j) :
    m = .unique j := by
  cases m with
  | unique i => exact congrArg NameMatch.unique (Option.some.inj h)
  | ambiguous is => cases h
  | missing => cases h

namespace Registry

/-- The registry after placeholders have been resolved, in order. -/
def given (r : Registry) (xs : List (PlaceholderId × SectionId)) : Registry :=
  xs.foldl (fun r x => r.resolve x.1 x.2) r

variable (r : Registry) (xs ys : List (PlaceholderId × SectionId))

theorem given_append : r.given (xs ++ ys) = (r.given xs).given ys := List.foldl_append

theorem given_concat (p : PlaceholderId) (id : SectionId) :
    r.given (xs ++ [(p, id)]) = (r.given xs).resolve p id := given_append r xs _

@[simp] theorem panes_given : (r.given xs).panes = r.panes := by
  induction xs generalizing r with
  | nil => rfl
  | cons x xs ih => exact ih (r.resolve x.1 x.2)

@[simp] theorem names_given : (r.given xs).names = r.names := by
  induction xs generalizing r with
  | nil => rfl
  | cons x xs ih => exact ih (r.resolve x.1 x.2)

theorem mem_known_given (id : SectionId) :
    id ∈ (r.given xs).known ↔ id ∈ r.known ∨ id ∈ xs.map (·.2) := by
  induction xs generalizing r with
  | nil => simp [given]
  | cons x xs ih =>
    change id ∈ ((r.resolve x.1 x.2).given xs).known ↔ _
    rw [ih]
    simp only [resolve, List.mem_cons, List.map_cons]
    grind

theorem resolved_given : (r.given xs).resolved = r.resolved.insertAll xs := by
  induction xs generalizing r with
  | nil => rfl
  | cons x xs ih => exact ih (r.resolve x.1 x.2)

variable {r xs ys}

/-! ## Lookups -/

/-- The queue plays no part in what can be looked up. -/
theorem lookupTarget_pending (q : List PendingLink) (t : LinkTarget) :
    ({ r with pending := q } : Registry).lookupTarget t = r.lookupTarget t := by
  cases t <;> rfl

theorem targetPane?_pending (q : List PendingLink) (t : LinkTarget) :
    ({ r with pending := q } : Registry).targetPane? t = r.targetPane? t := by
  cases t <;> rfl

theorem isResolvable_pending (q : List PendingLink) (l : PendingLink) :
    ({ r with pending := q } : Registry).isResolvable l = r.isResolvable l := by
  cases l with
  | mk index owner target link => cases target <;> cases owner <;> rfl

/-- The panes and their names are as before, and no section is forgotten. -/
structure Grows (r r' : Registry) : Prop where
  panes : r'.panes = r.panes
  names : r'.names = r.names
  known : r.known ⊆ r'.known
  resolved : ∀ p, r.resolved.contains p = true → r'.resolved.contains p = true

namespace Grows

variable {r' r'' : Registry}

theorem refl (r : Registry) : r.Grows r := ⟨rfl, rfl, fun _ => id, fun _ => id⟩

theorem trans (h : r.Grows r') (h' : r'.Grows r'') : r.Grows r'' where
  panes := h'.panes.trans h.panes
  names := h'.names.trans h.names
  known := List.Subset.trans h.known h'.known
  resolved p := h'.resolved p ∘ h.resolved p

variable (h : r.Grows r')
include h

theorem lookup_isSome {ref : PaneRef} (has : (r.lookup ref).isSome) :
    (r'.lookup ref).isSome := by
  cases ref with
  | real id => rfl
  | placeholder p => exact h.resolved p has

theorem lookupTarget_isSome {t : LinkTarget} (has : (r.lookupTarget t).isSome) :
    (r'.lookupTarget t).isSome := by
  cases t with
  | name key =>
    simp only [lookupTarget, h.names, h.panes] at has ⊢
    cases hr : (r.names.resolve key).unique?.bind (r.panes[·]?) with
    | none => simp [hr] at has
    | some ref =>
      rw [hr] at has
      exact h.lookup_isSome has
  | id id =>
    simp only [lookupTarget, List.contains_iff_mem, Option.isSome_ite] at has ⊢
    exact h.known has

/-- A link that can be resolved can be resolved later too. -/
theorem isResolvable {l : PendingLink} (ready : r.isResolvable l = true) :
    r'.isResolvable l = true := by
  simp only [Registry.isResolvable, Bool.and_eq_true] at ready ⊢
  exact ⟨h.lookup_isSome ready.1, h.lookupTarget_isSome ready.2⟩

end Grows

theorem grows_given (r : Registry) (xs : List (PlaceholderId × SectionId)) :
    r.Grows (r.given xs) where
  panes := panes_given r xs
  names := names_given r xs
  known id hid := (mem_known_given r xs id).2 (.inl hid)
  resolved p hp := by
    rw [resolved_given]
    exact (SortedMap.contains_insertAll _ _ p).2 (.inl hp)

theorem lookup_given {ref : PaneRef} {id : SectionId}
    (fresh : ∀ p ∈ xs.map (·.1), r.resolved.get? p = none) (h : r.lookup ref = some id) :
    (r.given xs).lookup ref = some id := by
  cases ref with
  | real id => exact h
  | placeholder p =>
    have apart : p ∉ xs.map (·.1) := fun hp => by simp [lookup, fresh p hp] at h
    rw [lookup, resolved_given, SortedMap.get?_insertAll_of_notMem apart]
    exact h

/-- As long as no placeholder is given a second section, the source of a link stays the same. -/
theorem lookupTarget_given {t : LinkTarget} {id : SectionId}
    (fresh : ∀ p ∈ xs.map (·.1), r.resolved.get? p = none) (h : r.lookupTarget t = some id) :
    (r.given xs).lookupTarget t = some id := by
  cases t with
  | name key =>
    simp only [lookupTarget, names_given, panes_given] at h ⊢
    obtain ⟨ref, hr, h⟩ := Option.bind_eq_some_iff.1 h
    rw [hr]
    exact lookup_given fresh h
  | id n =>
    simp only [lookupTarget, List.contains_iff_mem] at h ⊢
    split at h
    · next hn => rw [if_pos ((mem_known_given r xs n).2 (.inl hn))]; exact h
    · cases h

theorem lookupTarget_id {n id : SectionId} (h : r.lookupTarget (.id n) = some id) :
    id = n ∧ n ∈ r.known := by
  rw [lookupTarget] at h
  split at h
  · next known => exact ⟨(Option.some.inj h).symm, List.contains_iff_mem.1 known⟩
  · cases h

theorem lookupTarget_name {key : String} {id : SectionId}
    (h : r.lookupTarget (.name key) = some id) : ∃ j ref,
      r.names.resolve key = .unique j ∧ r.panes[j]? = some ref ∧ r.lookup ref = some id := by
  obtain ⟨ref, href, hid⟩ := Option.bind_eq_some_iff.1 h
  obtain ⟨j, hj, href⟩ := Option.bind_eq_some_iff.1 href
  exact ⟨j, ref, NameMatch.unique?_eq_some hj, href, hid⟩

theorem targetPane?_id {n : SectionId} {i : Nat} (h : r.targetPane? (.id n) = some i) :
    ∃ ref, r.panes[i]? = some ref ∧ r.lookup ref = some n := by
  obtain ⟨hi, found, -⟩ := List.findIdx?_eq_some_iff_getElem.1 h
  exact ⟨r.panes[i], List.getElem?_eq_getElem hi, by simpa using found⟩

/-- A number that was given to no placeholder denotes the pane it denoted before. -/
theorem targetPane?_id_given {n : SectionId}
    (fresh : ∀ p ∈ xs.map (·.1), r.resolved.get? p = none) (h : n ∉ xs.map (·.2)) :
    (r.given xs).targetPane? (.id n) = r.targetPane? (.id n) := by
  simp only [targetPane?, panes_given]
  congr 1
  funext ref
  cases ref with
  | real id => rfl
  | placeholder p =>
    have same : (r.given xs).lookup (.placeholder p) = some n ↔
        r.lookup (.placeholder p) = some n := by
      refine ⟨fun hp => ?_, lookup_given fresh⟩
      rw [lookup, resolved_given] at hp
      exact (SortedMap.mem_of_get?_insertAll hp).resolve_right fun hx => h (List.mem_map_of_mem hx)
    simp only [same]

end Registry
end PaneLayout
