import PaneLayout.Proofs.Naming
import PaneLayout.Proofs.Planning
import PaneLayout.Proofs.Progress
import PaneLayout.Proofs.Settled

set_option autoImplicit false

/-!
# One numbering of panes

A name denotes a pane by its index. A layout is walked four times: to check it, to plan it, to
register its panes and to give them sections. The index means the same pane every time, so a name
denotes one pane throughout, or none.
-/

namespace PaneLayout

/-- All panes that come into question, in the order of the tree. -/
def NameMatch.indices : NameMatch → List Nat
  | .unique i => [i]
  | .ambiguous is => is
  | .missing => []

theorem NameMatch.indices_among? (is : List Nat) :
    ((NameMatch.among? is).getD .missing).indices = is := by
  rcases is with _ | ⟨i, _ | ⟨j, is⟩⟩ <;> rfl

namespace Pane

def Carries (p : Pane) (key : String) : Prop :=
  p.name = some key ∨ p.title = some key ∨ p.table? = some key

theorem carriers_increasing (field : Pane → Option String) (key : String) (ps : List Pane) :
    (carriers field key 0 ps).Pairwise (· < ·) := by
  have indices : (ps.zipIdx.map (·.2)).Pairwise (· < ·) := by
    rw [List.zipIdx_map_snd]
    exact List.pairwise_lt_range'
  exact indices.sublist (List.filter_sublist.map _)

theorem mem_carriers {field : Pane → Option String} {key : String} {ps : List Pane} {i : Nat} :
    i ∈ carriers field key 0 ps ↔ ∃ p, ps[i]? = some p ∧ field p = some key := by
  simp only [carriers, List.mem_map, List.mem_filter, List.mem_zipIdx_iff_getElem?,
    decide_eq_true_eq, Prod.exists]
  constructor
  · rintro ⟨p, j, ⟨hp, held⟩, rfl⟩
    exact ⟨p, hp, held⟩
  · rintro ⟨p, hp, held⟩
    exact ⟨p, i, ⟨hp, held⟩, rfl⟩

/-- What a key denotes is decided in one of the fields. -/
theorem indices_denoted (ps : List Pane) (key : String) : (denoted ps key).indices = [] ∨
    ∃ field, (∀ p : Pane, field p = some key → p.Carries key) ∧
      (denoted ps key).indices = carriers field key 0 ps := by
  unfold denoted
  split
  · exact .inl rfl
  · by_cases names : carriers name key 0 ps = []
    · by_cases titles : carriers title key 0 ps = []
      · refine .inr ⟨table?, fun p => .inr ∘ .inr, ?_⟩
        rw [names, titles]
        exact NameMatch.indices_among? _
      · refine .inr ⟨title, fun p => .inr ∘ .inl, ?_⟩
        obtain ⟨i, is, held⟩ := List.exists_cons_of_ne_nil titles
        rw [names, held]
        cases is <;> rfl
    · refine .inr ⟨name, fun p => .inl, ?_⟩
      obtain ⟨i, is, held⟩ := List.exists_cons_of_ne_nil names
      rw [held]
      cases is <;> rfl

theorem name_settled (names : NameIndex) (ss : List SectionId) (p : Pane) (id : SectionId) :
    (p.settled (.pin names ss) id).name = p.name := by
  cases p <;> rfl

/-- A name that denotes no pane stays as it is. -/
theorem pin_of_not_unique {names : NameIndex} {key : String}
    (none : ∀ i, names.resolve key ≠ .unique i) (ss : List SectionId) {l : Link}
    (named : l.source = .name key) : pin names ss l = l := by
  unfold pin
  rw [named]
  dsimp only
  cases found : names.resolve key with
  | unique i => exact absurd found (none i)
  | ambiguous is => rfl
  | missing => rfl

end Pane

namespace Layout

variable {α : Type}

theorem resolve_ofLayout (t : Layout α) (key : String) :
    (NameIndex.ofLayout t).resolve key = t.denoted key :=
  NameIndex.resolve_ofPanes t.panes key

theorem indices_increasing (t : Layout α) (key : String) :
    (t.denoted key).indices.Pairwise (· < ·) := by
  rcases Pane.indices_denoted t.panes key with none | ⟨field, -, held⟩
  · exact none ▸ .nil
  · exact held ▸ Pane.carriers_increasing field key t.panes

theorem carries_of_mem_indices {t : Layout α} {key : String} {i : Nat}
    (h : i ∈ (t.denoted key).indices) : ∃ p, t.panes[i]? = some p ∧ p.Carries key := by
  rcases Pane.indices_denoted t.panes key with none | ⟨field, carries, held⟩
  · rw [denoted, none] at h
    cases h
  · rw [denoted, held, Pane.mem_carriers] at h
    obtain ⟨p, hp, own⟩ := h
    exact ⟨p, hp, carries p own⟩

/-- The panes of `t'` are those of `t`, one for one, with sections from `ids`. A link by the key
leads to the section of the pane that the key denotes, and is left alone if it denotes none. -/
structure Rewritten (t t' : Layout α) (ids : List SectionId) (key : String) : Prop where
  length : t'.panes.length = t.panes.length
  pane : ∀ (i : Nat) p p', t.panes[i]? = some p → t'.panes[i]? = some p' →
    p'.name = p.name ∧ p'.title = p.title ∧ p'.description = p.description ∧
      p'.section? = (Pane.assignedSections t.panes ids)[i]?
  pinned : ∀ i, t.denoted key = .unique i → ∃ q id, t'.panes[i]? = some q ∧
    q.section? = some id ∧ ∀ (j : Nat) p p' l, t.panes[j]? = some p → t'.panes[j]? = some p' →
      p.link = some l → l.source = .name key → p'.link = some (l.withSource (.id id))
  loose : (∀ i, t.denoted key ≠ .unique i) → ∀ (j : Nat) p p' l, t.panes[j]? = some p →
    t'.panes[j]? = some p' → p.link = some l → l.source = .name key → p'.link = some l

variable [Scalar α] {t t' : Layout α} {ids : List SectionId}

theorem Pinned.length_eq (h : t.Pinned ids t') : t'.panes.length = t.panes.length := by
  have sections := congrArg List.length h.map_section?
  rw [List.length_map, List.length_map] at sections
  exact sections.trans (Pane.assignedSections_length h.count)

theorem Pinned.pane_eq (h : t.Pinned ids t') {i : Nat} {p p' : Pane} (hp : t.panes[i]? = some p)
    (hp' : t'.panes[i]? = some p') : ∃ id, (Pane.assignedSections t.panes ids)[i]? = some id ∧
      p'.section? = some id ∧
      p' = p.settled (.pin (.ofLayout t) (Pane.assignedSections t.panes ids)) id := by
  obtain ⟨p₀, id, hp₀, found, own, same⟩ := h.pane hp'
  obtain rfl := Option.some.inj (hp.symm.trans hp₀)
  exact ⟨id, found, own, same⟩

theorem Pinned.rewritten (h : t.Pinned ids t') (key : String) : t.Rewritten t' ids key where
  length := h.length_eq
  pane i p p' hp hp' := by
    obtain ⟨id, found, own, rfl⟩ := h.pane_eq hp hp'
    exact ⟨Pane.name_settled _ _ _ _, Pane.title_settled _ _ _ _, Pane.description_settled _ _ _ _,
      own.trans found.symm⟩
  pinned i only := by
    have here : i ∈ (t.denoted key).indices := by
      rw [only]
      exact List.mem_singleton_self i
    obtain ⟨p, hp, -⟩ := carries_of_mem_indices here
    obtain ⟨id', hq⟩ := h.pane_of hp
    obtain ⟨id, found, own, -⟩ := h.pane_eq hp hq
    refine ⟨_, id, hq, own, fun j p p' l hp hp' link named => ?_⟩
    obtain ⟨-, -, -, rfl⟩ := h.pane_eq hp hp'
    have denotes : l.source.sectionIn (.ofLayout t) (Pane.assignedSections t.panes ids) =
        some id := by
      rw [named, LinkTarget.sectionIn, resolve_ofLayout, only]
      exact found
    rw [Pane.link_settled, link, Option.map_some, Pane.pin_of_sectionIn denotes]
  loose none j p p' l hp hp' link named := by
    obtain ⟨-, -, -, rfl⟩ := h.pane_eq hp hp'
    have unpinned : Pane.pin (.ofLayout t) (Pane.assignedSections t.panes ids) l = l := by
      refine Pane.pin_of_not_unique (fun i => ?_) _ named
      rw [resolve_ofLayout]
      exact none i
    rw [Pane.link_settled, link, Option.map_some, unpinned]

end Layout

variable {α : Type} [Scalar α]

/-- The panes of the plan, and of its registry, are those of the layout, one for one. -/
structure Plan.Numbers (plan : Plan α) (tables : TableMap) (t : Layout α) : Prop where
  panes : plan.panes = t.panes.mapIdx fun i p =>
    ⟨i, t.refAt i p, p.table?.bind tables.get?, p.label, p.title, p.description⟩
  refs : plan.registry.panes = plan.panes.map (·.ref)

namespace Plan.Draws

variable {plan : Plan α} {tables : TableMap} {t : Layout α} (h : plan.Draws tables t)
include h

theorem numbers : plan.Numbers tables t where
  panes := h.follows.panes
  refs := by
    rw [h.registered, h.panes, List.map_map]
    rfl

theorem targetPane?_name (key : String) (i : Nat) :
    plan.registry.targetPane? (.name key) = some i ↔ t.denoted key = .unique i := by
  change (plan.registry.names.resolve key).unique? = some i ↔ _
  rw [h.names, Layout.resolve_ofLayout]
  cases t.denoted key <;> simp [NameMatch.unique?]

end Plan.Draws

/-- A key denotes the same wherever it is looked up: in the index of the layout, in the registry of
its plan, filled pane by pane, and in the links of the layout once it is given sections. -/
theorem names_alike (t : Layout α) (key : String) :
    ((NameIndex.ofLayout t).resolve key = t.denoted key ∧
      (t.denoted key).indices.Pairwise (· < ·) ∧
      ∀ i ∈ (t.denoted key).indices, ∃ p, t.panes[i]? = some p ∧ p.Carries key) ∧
    (∀ tables plan, Plan.make (some t) tables = .ok plan → plan.Numbers tables t ∧
      ∀ i, plan.registry.targetPane? (.name key) = some i ↔ t.denoted key = .unique i) ∧
    ∀ ids, ids.length = t.newPanes.length → ∃ t', t.withSections ids = .ok t' ∧
      t.Rewritten t' ids key := by
  refine ⟨⟨t.resolve_ofLayout key, t.indices_increasing key, fun i => Layout.carries_of_mem_indices⟩,
    ?_, ?_⟩
  · intro tables plan made
    obtain ⟨t', same, -, draws⟩ := Plan.make_ok made
    obtain rfl := Option.some.inj same
    exact ⟨draws.numbers, draws.targetPane?_name key⟩
  · intro ids enough
    obtain ⟨t', given, pinned⟩ := Layout.withSections_pinned enough
    exact ⟨t', given, pinned.rewritten key⟩

/-- The buyers are pane 1 of the layout, of its plan and of what its new sections make of it. -/
theorem names_alike_buyers : ∃ plan,
    Plan.make (some Document.buyersLayout) Document.shop.tableMap = .ok plan ∧
    plan.registry.targetPane? (.name "buyers") = some 1 ∧
    ∃ t', Document.buyersLayout.withSections [⟨8⟩, ⟨9⟩] = .ok t' ∧
      Document.buyersLayout.Rewritten t' [⟨8⟩, ⟨9⟩] "buyers" := by
  obtain ⟨-, planned, rewritten⟩ := names_alike Document.buyersLayout "buyers"
  obtain ⟨plan, _, made, -⟩ := exists_ok_of_test (fun _ _ => true)
    (x := (Plan.make (some Document.buyersLayout) Document.shop.tableMap, ())) (by decide +kernel)
  replace made := (Prod.mk.inj made).1
  have denoted : Document.buyersLayout.denoted "buyers" = .unique 1 := by decide
  exact ⟨plan, made, ((planned _ plan made).2 1).2 denoted, rewritten [⟨8⟩, ⟨9⟩] rfl⟩

/-- A pane named by the key keeps it from a pane with that title and from a table of that name. -/
example : Pane.denoted [.existing ⟨4⟩ ⟨none, some "Orders", none, none⟩,
    .new "Orders" .grid ⟨none, none, none, none⟩, .existing ⟨5⟩ ⟨some "Orders", none, none, none⟩]
    "Orders" = .unique 2 := by
  decide

end PaneLayout
