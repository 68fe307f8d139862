import PaneLayout.Proofs.Bundle
import PaneLayout.Proofs.Planning
import PaneLayout.Proofs.Progress

set_option autoImplicit false

/-!
# Sections in the place of placeholders

A plan after its registry has been given sections, in any order, some of them twice and some for
placeholders that are not its own. There is a page as soon as every placeholder of the plan has a
section, and until then the leftmost one that has none is reported.
-/

namespace PaneLayout

variable {α : Type}

namespace Registry

/-- On a registry that has given out nothing exactly the placeholders that are given have sections. -/
theorem lookup_given_eq_none_iff {r : Registry} (blank : r.resolved = ∅)
    (xs : List (PlaceholderId × SectionId)) (p : PlaceholderId) :
    (r.given xs).lookup (.placeholder p) = none ↔ p ∉ xs.map (·.1) := by
  have given : ((r.given xs).lookup (.placeholder p)).isSome ↔ p ∈ xs.map (·.1) := by
    rw [lookup, resolved_given, blank]
    exact (SortedMap.contains_insertAll _ _ p).trans (or_iff_right Bool.false_ne_true)
  rw [← given, Option.not_isSome_iff_eq_none]

end Registry

namespace Plan

def after (plan : Plan α) (xs : List (PlaceholderId × SectionId)) : Plan α :=
  { plan with registry := plan.registry.given xs }

/-- The placeholders on the page, from left to right. -/
def placeholders (plan : Plan α) : List PlaceholderId :=
  plan.layout.leaves.filterMap PaneRef.placeholder?

theorem leafSection_ok {r : Registry} {ref : PaneRef} {id : SectionId}
    (h : leafSection r ref = .ok id) : r.lookup ref = some id := by
  rw [← toOption_leafSection, h]
  rfl

theorem leafSection_error {r : Registry} {ref : PaneRef} {e : CompileError}
    (h : leafSection r ref = .error e) : r.lookup ref = none ∧ ∃ p, ref = .placeholder p ∧
      e = .malformed (.unresolvedPlaceholder p.text) := by
  have lacking : r.lookup ref = none := by
    rw [← toOption_leafSection, h]
    rfl
  unfold leafSection at h
  rw [lacking] at h
  cases ref with
  | real id => cases lacking
  | placeholder p => exact ⟨lacking, p, rfl, (Except.error.inj h).symm⟩

/-- What is reported is the first placeholder on the page that has no section. -/
theorem nativeLayout_error {plan : Plan α} {e : CompileError} (h : plan.nativeLayout = .error e) :
    ∃ p, plan.placeholders.find? (fun q => (plan.registry.lookup (.placeholder q)).isNone) =
      some p ∧ e = .malformed (.unresolvedPlaceholder p.text) := by
  obtain ⟨before, ref, after, held, fine, failed⟩ := Native.mapLeaves_error h
  obtain ⟨lacking, p, rfl, report⟩ := leafSection_error failed
  refine ⟨p, ?_, report⟩
  rw [List.find?_eq_some_iff_append]
  refine ⟨by rw [lacking]; rfl, before.filterMap PaneRef.placeholder?,
    after.filterMap PaneRef.placeholder?, ?_, fun q hq => ?_⟩
  · rw [placeholders, held, List.filterMap_append]
    rfl
  · obtain ⟨ref, href, same⟩ := List.mem_filterMap.1 hq
    obtain ⟨id, found⟩ := fine ref href
    have has : plan.registry.lookup ref = some id := leafSection_ok found
    cases ref with
    | real _ => cases same
    | placeholder q' =>
      obtain rfl := Option.some.inj same
      rw [has]
      rfl

/-- A page has no placeholder that is without a section. -/
theorem lookup_of_nativeLayout {plan : Plan α} {page : Native α SectionId}
    (h : plan.nativeLayout = .ok page) {p : PlaceholderId} (hp : p ∈ plan.placeholders) :
    plan.registry.lookup (.placeholder p) ≠ none := by
  obtain ⟨ref, href, same⟩ := List.mem_filterMap.1 hp
  obtain ⟨id, found⟩ := exists_of_map_some (nativeLayout_ok h).2 href
  cases ref with
  | real _ => cases same
  | placeholder q =>
    obtain rfl := Option.some.inj same
    rw [found]
    exact Option.some_ne_none id

/-- The page of a plan, its placeholders filled in. -/
structure Substituted (plan : Plan α) (xs : List (PlaceholderId × SectionId))
    (page : Native α SectionId) : Prop where
  /-- The axes, the ratios and the nesting are those of the plan. -/
  shape : page.shape = plan.layout.shape
  leaves : page.leaves.map .ok = (List.range plan.panes.length).map (plan.after xs).sectionOf
  bundled : ∀ view (links : SortedMap Nat LinkTuple),
    (∀ i, links.contains i = true → i < plan.panes.length) →
      (plan.after xs).mutations view page links = .ok (plan.bundle page.leaves view page links)

theorem Assigned.map_sectionOf {plan : Plan α} {ss : List SectionId} (h : plan.Assigned ss) :
    ss.map .ok = (List.range plan.panes.length).map plan.sectionOf := by
  apply List.ext_getElem
  · rw [List.length_map, List.length_map, List.length_range, h.length]
  · intro i hi _
    rw [List.length_map] at hi
    rw [List.getElem_map, List.getElem_map, List.getElem_range]
    exact (h.sectionOf (List.getElem?_eq_getElem hi)).symm

variable [Scalar α] {plan : Plan α} {tables : TableMap} {t : Layout α}

namespace Draws

theorem refs_eq (h : plan.Draws tables t) : plan.panes.map (·.ref) = plan.layout.leaves := by
  rw [h.panes, h.leaves, List.map_map]
  rfl

theorem assigned_after (h : plan.Draws tables t) {xs : List (PlaceholderId × SectionId)}
    {page : Native α SectionId} (made : (plan.after xs).nativeLayout = .ok page) :
    (plan.after xs).Assigned page.leaves where
  panes := by
    rw [← (nativeLayout_ok made).2]
    change _ = plan.layout.leaves.map _
    rw [← h.refs_eq, List.map_map]
    rfl
  leaves := (nativeLayout_ok made).2

theorem substituted (h : plan.Draws tables t) {xs : List (PlaceholderId × SectionId)}
    {page : Native α SectionId} (made : (plan.after xs).nativeLayout = .ok page) :
    plan.Substituted xs page where
  shape := (nativeLayout_ok made).1
  leaves := (h.assigned_after made).map_sectionOf
  bundled view links inside := by
    have assigned := h.assigned_after made
    have length : plan.panes.length = page.leaves.length := assigned.length
    exact mutations_eq assigned view page (fun i hi => length ▸ inside i hi)
      fun p hp => length ▸ h.index_lt hp

end Draws

/-- However the placeholders are given sections, the page stands exactly if none is left out. If
one is, the leftmost of them is reported. -/
theorem nativeLayout_after_iff {t? : Option (Layout α)} (made : make t? tables = .ok plan)
    (xs : List (PlaceholderId × SectionId)) :
    plan.creations.map (·.placeholder) = plan.placeholders ∧
    ((∃ page, (plan.after xs).nativeLayout = .ok page) ↔
      ∀ p ∈ plan.placeholders, p ∈ xs.map (·.1)) ∧
    (∀ page, (plan.after xs).nativeLayout = .ok page → plan.Substituted xs page) ∧
    ∀ e, (plan.after xs).nativeLayout = .error e → e.rules = ["L13"] ∧
      ∃ p, plan.placeholders.find? (fun q => decide (q ∉ xs.map (·.1))) = some p ∧
        e = .malformed (.unresolvedPlaceholder p.text) := by
  obtain ⟨t, -, -, draws⟩ := make_ok made
  have lacks (p : PlaceholderId) : (plan.after xs).registry.lookup (.placeholder p) = none ↔
      p ∉ xs.map (·.1) := Registry.lookup_given_eq_none_iff draws.resolved xs p
  have failing : ∀ e, (plan.after xs).nativeLayout = .error e →
      ∃ p, plan.placeholders.find? (fun q => decide (q ∉ xs.map (·.1))) = some p ∧
        e = .malformed (.unresolvedPlaceholder p.text) := by
    intro e failed
    obtain ⟨p, first, report⟩ := nativeLayout_error failed
    refine ⟨p, ?_, report⟩
    rw [← first]
    change plan.placeholders.find? _ = plan.placeholders.find? _
    congr 1
    funext q
    rw [Bool.eq_iff_iff, decide_eq_true_eq, Option.isNone_iff_eq_none, lacks]
  refine ⟨draws.follows.created.trans draws.follows.placed.symm, ⟨?_, ?_⟩,
    fun page stands => draws.substituted stands, ?_⟩
  · rintro ⟨page, stands⟩ p hp
    by_contra out
    exact lookup_of_nativeLayout stands hp ((lacks p).2 out)
  · intro all
    cases stands : (plan.after xs).nativeLayout with
    | ok page => exact ⟨page, rfl⟩
    | error e =>
      obtain ⟨p, first, -⟩ := failing e stands
      have out : p ∉ xs.map (·.1) := by simpa using List.find?_some first
      exact absurd (all p (List.mem_of_find?_eq_some first)) out
  · intro e failed
    obtain ⟨p, first, rfl⟩ := failing e failed
    exact ⟨rfl, p, first, rfl⟩

/-- The order has a section before the buyers do, and later another. Without theirs there is no page. -/
theorem nativeLayout_after_iff_buyers : ∃ plan,
    make (some Document.buyersLayout) Document.shop.tableMap = .ok plan ∧
    (∃ page, (plan.after [(⟨2⟩, ⟨9⟩), (⟨1⟩, ⟨8⟩), (⟨2⟩, ⟨5⟩)]).nativeLayout = .ok page ∧
      plan.Substituted [(⟨2⟩, ⟨9⟩), (⟨1⟩, ⟨8⟩), (⟨2⟩, ⟨5⟩)] page) ∧
    (plan.after [(⟨2⟩, ⟨9⟩)]).nativeLayout =
      .error (.malformed (.unresolvedPlaceholder (PlaceholderId.mk 1).text)) := by
  obtain ⟨plan, _, made, found⟩ := exists_ok_of_test
    (fun plan _ => decide (plan.placeholders = [⟨1⟩, ⟨2⟩]))
    (x := (make (some Document.buyersLayout) Document.shop.tableMap, ())) (by decide +kernel)
  replace made := (Prod.mk.inj made).1
  have placed := of_decide_eq_true found
  refine ⟨plan, made, ?_, ?_⟩
  · obtain ⟨-, iff, substituted, -⟩ := nativeLayout_after_iff made
      [(⟨2⟩, ⟨9⟩), (⟨1⟩, ⟨8⟩), (⟨2⟩, ⟨5⟩)]
    rw [placed] at iff
    obtain ⟨page, stands⟩ := iff.2 (by decide)
    exact ⟨page, stands, substituted page stands⟩
  · obtain ⟨-, iff, -, report⟩ := nativeLayout_after_iff made [(⟨2⟩, ⟨9⟩)]
    rw [placed] at iff report
    cases ending : (plan.after [(⟨2⟩, ⟨9⟩)]).nativeLayout with
    | ok page => exact absurd (iff.1 ⟨page, ending⟩ ⟨1⟩ (by decide)) (by decide)
    | error e =>
      obtain ⟨-, p, first, rfl⟩ := report e ending
      obtain rfl : (⟨1⟩ : PlaceholderId) = p := Option.some.inj first
      rfl

end Plan
end PaneLayout
