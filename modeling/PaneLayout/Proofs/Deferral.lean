import Mathlib.Data.List.Perm.Subperm
import Mathlib.Data.List.Sort
import PaneLayout.Proofs.Progress
import PaneLayout.Proofs.Standing

set_option autoImplicit false

/-!
# Deferring links

It makes no difference when a link is resolved. Past the last creation the links of a plan fall
into those that can be resolved and those still waiting, and each of the former has the tuple that
resolving it then would give.
-/

namespace PaneLayout

variable {α σ : Type}

theorem SectionId.length_le_of_nodup {ids : List SectionId} (distinct : ids.Nodup) :
    ids.length ≤ UInt32.size := by
  have numbers : (ids.map SectionId.toNat).Nodup :=
    distinct.map fun _ _ => SectionId.toNat_inj
  have bounded : ids.map SectionId.toNat ⊆ List.range UInt32.size := by
    intro n hn
    obtain ⟨id, -, rfl⟩ := List.mem_map.1 hn
    exact List.mem_range.2 id.raw.toNat_lt
  have few := (numbers.subperm bounded).length_le
  rwa [List.length_map, List.length_range] at few

namespace Compile

/-- The links of a plan once everything is created, told apart by whether they can be resolved. -/
structure Divided (client : Client α σ) (rules : LinkRules) (plan : Plan α) (s : Surroundings)
    (p : Progress) (st : Schooled σ) : Prop where
  /-- No two links have one owner. -/
  owners : (plan.links.map (·.ownerIndex)).Pairwise (· < ·)
  resolved : p.tuples.keys = (plan.links.filter p.registry.isResolvable).map (·.ownerIndex)
  waiting : p.registry.pending = plan.links.filter fun l => !p.registry.isResolvable l
  all : (p.tuples.keys ++ p.registry.pending.map (·.ownerIndex)).Perm
    (plan.links.map (·.ownerIndex))
  /-- Resolved again after all creations, a link gives its tuple and asks for nothing. -/
  tuples : ∀ l ∈ plan.links, ∀ t, p.tuples.get? l.ownerIndex = some t →
    (resolveLink client rules plan p.registry s l).start st = (.ok t, st)

variable {client : Client α σ} {rules : LinkRules} {plan : Plan α} {s : Surroundings}
  {r : Registry} {xs : List (PlaceholderId × SectionId)} {p : Progress} {st : Schooled σ}

theorem Standing.isResolvable_eq (h : Standing client rules plan s r xs p st) :
    p.registry.isResolvable = (r.given xs).isResolvable := by
  rw [h.registry]
  exact funext (Registry.isResolvable_pending _)

theorem Standing.waiting_eq (h : Standing client rules plan s r xs p st) :
    p.registry.pending = plan.links.filter fun l => !p.registry.isResolvable l := by
  rw [h.isResolvable_eq, h.registry]

theorem Standing.keys_eq (h : Standing client rules plan s r xs p st)
    (owners : (plan.links.map (·.ownerIndex)).Pairwise (· < ·)) :
    p.tuples.keys = (plan.links.filter p.registry.isResolvable).map (·.ownerIndex) := by
  have sorted : ((plan.links.filter p.registry.isResolvable).map (·.ownerIndex)).Pairwise (· < ·) :=
    owners.sublist (List.filter_sublist.map _)
  apply p.tuples.keys_increasing.eq_of_mem_iff sorted
  intro i
  rw [p.tuples.mem_keys, h.keys, h.isResolvable_eq, List.mem_map]
  simp only [List.mem_filter, and_assoc]

theorem Standing.divided (h : Standing client rules plan s r xs p st)
    (owners : (plan.links.map (·.ownerIndex)).Pairwise (· < ·)) (blank : r.resolved = ∅)
    (fresh : r.Fresh xs) : Divided client rules plan s p st where
  owners := owners
  resolved := h.keys_eq owners
  waiting := h.waiting_eq
  all := by
    rw [h.keys_eq owners, h.waiting_eq, ← List.map_append]
    exact (List.filter_append_perm _ plan.links).map _
  tuples l hl t ht := by
    rw [h.registry, resolveLink_pending]
    exact h.settled blank fresh hl ht st (.refl st)

variable [Scalar α]

theorem Populated.fresh {config : CompilerConfig} {request : LayoutRequest α} {t : Layout α}
    (h : Populated client config request t plan r s xs p st)
    (distinct : (p.created.map (·.id)).Nodup)
    (apart : ∀ id ∈ p.created.map (·.id), s.widgets.contains id = false) : r.Fresh xs := by
  rw [h.standing.created] at distinct apart
  have few : t.newPanes.length ≤ UInt32.size := by
    have bound := SectionId.length_le_of_nodup distinct
    rwa [List.length_map, ← List.length_map (·.1), h.placeholders, List.length_map,
      h.draws.creations_length] at bound
  refine ⟨?_, distinct, fun id hid known => ?_⟩
  · rw [h.placeholders]
    exact h.draws.placeholders_nodup few
  · exact Bool.false_ne_true ((apart id hid).symm.trans ((h.known id).1 known))

end Compile

open Compile

variable [Scalar α]

/-- On any client whose new sections are distinct and none of the widgets that were fetched before,
those of the tree among them, the time at which a link is resolved makes no difference. -/
theorem compile_divides (client : Client α σ) (config : CompilerConfig)
    (request : LayoutRequest α) (s₀ : σ) {plan : Plan α} {s : Surroundings} {p : Progress}
    {st : Schooled σ}
    (run : (populate client config request).start (.fresh s₀) = (.ok (plan, s, p), st))
    (distinct : (p.created.map (·.id)).Nodup)
    (apart : ∀ id ∈ p.created.map (·.id), s.widgets.contains id = false) :
    (∀ id, (compileRun client config id request).start (.fresh s₀) =
      (conclude client id plan s p).start st) ∧
    Divided client (.ofConfig request.tables config) plan s p st := by
  obtain ⟨t, r, xs, populated⟩ := (populate_stands client config request (.fresh s₀)).ok run
  constructor
  · intro id
    rw [compileRun_eq, Run.start_bind, run]
  · exact populated.standing.divided populated.draws.owners_increasing populated.blank
      (populated.fresh distinct apart)

theorem compile_divides_buyers : ∃ plan s p st,
    (populate Document.client .standard
      ⟨some ⟨1⟩, Document.shop.tableMap, some Document.buyersLayout⟩).start (.fresh Document.shop) =
      (.ok (plan, s, p), st) ∧
    (p.created.map (·.id)).Nodup ∧
    (∀ id ∈ p.created.map (·.id), s.widgets.contains id = false) ∧
    (∀ id, (compileRun Document.client .standard id
      ⟨some ⟨1⟩, Document.shop.tableMap, some Document.buyersLayout⟩).start (.fresh Document.shop) =
      (conclude Document.client id plan s p).start st) ∧
    Divided Document.client (.ofConfig Document.shop.tableMap .standard) plan s p st := by
  obtain ⟨⟨plan, s, p⟩, st, run, found⟩ := exists_ok_of_test
    (fun (_, s, p) _ => decide ((p.created.map WidgetInfo.id).Nodup ∧
      ∀ id ∈ p.created.map WidgetInfo.id, s.widgets.contains id = false))
    (x := (populate Document.client .standard
      ⟨some ⟨1⟩, Document.shop.tableMap, some Document.buyersLayout⟩).start (.fresh Document.shop))
    (by decide +kernel)
  obtain ⟨distinct, apart⟩ := of_decide_eq_true found
  exact ⟨plan, s, p, st, run, distinct, apart,
    compile_divides Document.client .standard _ Document.shop run distinct apart⟩

end PaneLayout
