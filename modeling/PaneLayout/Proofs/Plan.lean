import PaneLayout.Plan
import PaneLayout.Proofs.Registry
import PaneLayout.Proofs.Shape

set_option autoImplicit false

/-!
# What a plan holds

Lowering meets the panes from left to right and gives each a slot: its number, its reference and,
for a new pane, its table. The panes, creations and links of a plan are read off the slots, and so
are the leaves of its page.
-/

namespace PaneLayout

structure Slot where
  index : Nat
  ref : PaneRef
  table : Option TableRef
  pane : Pane

namespace Slot

def plan (s : Slot) : PanePlan :=
  ⟨s.index, s.ref, s.table, s.pane.label, s.pane.title, s.pane.description⟩

def creations (s : Slot) : List Creation := Draft.creationOf s.index s.ref s.table s.pane

def links (s : Slot) : List PendingLink := Draft.linkOf s.index s.ref s.pane

/-- The slots of panes that follow `i` others, `k` of them new. -/
def number (tables : TableMap) (i : Nat) (k : UInt32) : List Pane → List Slot
  | [] => []
  | p :: ps => match p.section? with
    | some id => ⟨i, .real id, p.table?.bind tables.get?, p⟩ :: number tables (i + 1) k ps
    | none =>
      ⟨i, .placeholder ⟨k + 1⟩, p.table?.bind tables.get?, p⟩ :: number tables (i + 1) (k + 1) ps

variable {tables : TableMap}

theorem number_panes (i : Nat) (k : UInt32) (ps : List Pane) :
    (number tables i k ps).map (·.pane) = ps := by
  induction ps generalizing i k with
  | nil => rfl
  | cons p ps ih => rw [number]; split <;> simp [ih]

theorem number_index {i : Nat} {k : UInt32} {ps : List Pane} {j : Nat} {s : Slot}
    (h : (number tables i k ps)[j]? = some s) : s.index = i + j := by
  induction ps generalizing i k j with
  | nil => simp [number] at h
  | cons p ps ih =>
    rw [number] at h
    cases j with
    | zero => split at h <;> simp at h <;> simp [← h]
    | succ j => split at h <;> simp at h <;> have := ih h <;> omega

theorem number_table {i : Nat} {k : UInt32} {ps : List Pane} {s : Slot}
    (h : s ∈ number tables i k ps) : s.table = s.pane.table?.bind tables.get? := by
  induction ps generalizing i k with
  | nil => simp [number] at h
  | cons p ps ih =>
    rw [number] at h
    split at h <;> rcases List.mem_cons.1 h with rfl | h <;> first | rfl | exact ih h

/-- A slot has a section from the start exactly if its pane does. -/
theorem number_real {i : Nat} {k : UInt32} {ps : List Pane} {s : Slot}
    (h : s ∈ number tables i k ps) (id : SectionId) :
    s.ref = .real id ↔ s.pane.section? = some id := by
  induction ps generalizing i k with
  | nil => simp [number] at h
  | cons p ps ih =>
    rw [number] at h
    split at h <;> rcases List.mem_cons.1 h with rfl | h <;> first | simp [*] | exact ih h

/-- The links of the panes, by the panes that have one. -/
theorem number_owners (i : Nat) (k : UInt32) (ps : List Pane) :
    ((number tables i k ps).flatMap (·.links)).map (·.ownerIndex) =
      ((ps.zipIdx i).filter fun x => x.1.link.isSome).map (·.2) := by
  induction ps generalizing i k with
  | nil => rfl
  | cons p ps ih =>
    have first (ref : PaneRef) (table : Option TableRef) :
        (links ⟨i, ref, table, p⟩).map (·.ownerIndex) = if p.link.isSome then [i] else [] := by
      unfold links Draft.linkOf
      cases p.link <;> rfl
    rw [number, List.zipIdx_cons, List.filter_cons]
    split <;> rw [List.flatMap_cons, List.map_append, first, ih] <;> cases p.link <;> rfl

/-- The new panes and their creations, one for one. -/
theorem number_creations {i : Nat} {k : UInt32} {ps : List Pane}
    (mapped : ∀ p ∈ ps, ∀ name, p.table? = some name → (tables.get? name).isSome) {j : Nat}
    {c : Creation} (h : ((number tables i k ps).flatMap (·.creations))[j]? = some c) :
    ∃ name info, (ps.filter Pane.isNew)[j]? = some (.new name c.type info) ∧
      tables.get? name = some c.table := by
  induction ps generalizing i k j with
  | nil => cases h
  | cons p ps ih =>
    obtain ⟨mp, mps⟩ := List.forall_mem_cons.1 mapped
    cases p with
    | leaf id => exact ih mps h
    | existing id info => exact ih mps h
    | new name type info =>
      obtain ⟨table, found⟩ := Option.isSome_iff_exists.1 (mp name rfl)
      have here : creations ⟨i, .placeholder ⟨k + 1⟩, tables.get? name, .new name type info⟩ =
          [⟨i, ⟨k + 1⟩, table, type⟩] := by
        rw [creations, found]
        rfl
      change (creations _ ++ _)[j]? = some c at h
      change ∃ name' info', (Pane.new name type info :: ps.filter Pane.isNew)[j]? = _ ∧ _
      rw [Pane.table?, Option.bind_some, here] at h
      cases j with
      | zero =>
        obtain rfl := Option.some.inj h
        exact ⟨name, info, rfl, found⟩
      | succ j => exact ih mps h

end Slot

theorem Pane.table?_isSome_iff (p : Pane) : p.table?.isSome ↔ p.section? = none := by
  cases p <;> simp [table?, section?]

/-- Whether the table that a new pane names has a reference. -/
def Pane.isMapped (tables : TableMap) (p : Pane) : Bool :=
  p.table?.all fun name => (tables.get? name).isSome

theorem Pane.isMapped_iff {tables : TableMap} (p : Pane) : p.isMapped tables = true ↔
    ∀ name, p.table? = some name → (tables.get? name).isSome := by
  unfold isMapped
  cases p.table? <;> simp

/-! ## Gathering panes -/

namespace Draft

def addPanes (tables : TableMap) (d : Draft) :
    List Pane → Except CompileError (List PaneRef × Draft)
  | [] => .ok ([], d)
  | p :: ps => do
    let (ref, d) ← addPane tables d p
    let (refs, d) ← addPanes tables d ps
    return (ref :: refs, d)

/-- What the panes `ps` add to a draft. -/
structure Adds (tables : TableMap) (d : Draft) (ps : List Pane) (refs : List PaneRef) (d' : Draft) :
    Prop where
  mapped : ∀ p ∈ ps, ∀ name, p.table? = some name → (tables.get? name).isSome
  referred : refs = (Slot.number tables d.panes.length d.registry.lastPlaceholder ps).map (·.ref)
  panes : d'.panes =
    d.panes ++ (Slot.number tables d.panes.length d.registry.lastPlaceholder ps).map (·.plan)
  creations : d'.creations = d.creations ++
    (Slot.number tables d.panes.length d.registry.lastPlaceholder ps).flatMap (·.creations)
  links : d'.links = d.links ++
    (Slot.number tables d.panes.length d.registry.lastPlaceholder ps).flatMap (·.links)
  registered : d'.registry.panes = d.registry.panes ++ refs
  names : d'.registry.names = d.registry.names.addFrom d.registry.paneCount ps
  known : ∀ id, id ∈ d'.registry.known ↔ id ∈ d.registry.known ∨ ∃ p ∈ ps, p.section? = some id
  resolved : d'.registry.resolved = d.registry.resolved
  pending : d'.registry.pending = d.registry.pending

theorem addPanes_append (tables : TableMap) (d : Draft) (ps qs : List Pane) :
    addPanes tables d (ps ++ qs) = (addPanes tables d ps >>= fun x =>
      addPanes tables x.2 qs >>= fun y => pure (x.1 ++ y.1, y.2)) := by
  induction ps generalizing d with
  | nil => cases h : addPanes tables d qs <;> simp [addPanes, bind, Except.bind, pure, Except.pure, h]
  | cons p ps ih =>
    simp only [List.cons_append, addPanes, ih, bind, Except.bind]
    rcases addPane tables d p with e | x
    · rfl
    · dsimp only
      rcases addPanes tables x.2 ps with e | y
      · rfl
      · dsimp only [pure, Except.pure]
        rcases addPanes tables y.2 qs with e | z <;> rfl

theorem tableOf_ok {tables : TableMap} {p : Pane} {t : Option TableRef}
    (h : tableOf tables p = .ok t) :
    t = p.table?.bind tables.get? ∧ ∀ name, p.table? = some name → (tables.get? name).isSome := by
  unfold tableOf at h
  cases hp : p.table? with
  | none => simp [hp] at h; simp [← h]
  | some name =>
    cases ht : tables.get? name with
    | none => simp [hp, ht] at h
    | some t' => simp [hp, ht] at h; simp [ht, ← h]

theorem tableOf_error {tables : TableMap} {p : Pane} {e : CompileError}
    (h : tableOf tables p = .error e) : ∃ name, p.table? = some name ∧ tables.get? name = none ∧
      e = .unknownTable name p.label tables.keys := by
  unfold tableOf at h
  cases hp : p.table? with
  | none => simp [hp] at h
  | some name =>
    cases ht : tables.get? name with
    | none => simp [hp, ht] at h; exact ⟨name, rfl, ht, h.symm⟩
    | some t' => simp [hp, ht] at h

theorem addPanes_adds {tables : TableMap} {d d' : Draft} {ps : List Pane} {refs : List PaneRef}
    (same : d.registry.panes.length = d.panes.length) (h : addPanes tables d ps = .ok (refs, d')) :
    d.Adds tables ps refs d' := by
  induction ps generalizing d refs with
  | nil =>
    obtain ⟨rfl, rfl⟩ := Prod.mk.inj (Except.ok.inj h)
    constructor <;> simp [Slot.number, NameIndex.addFrom]
  | cons p ps ih =>
    simp only [addPanes, addPane, bind_ok_iff] at h
    obtain ⟨⟨ref, d₁⟩, ⟨t, ht, h₁⟩, ⟨rest, d₂⟩, hrest, h⟩ := h
    obtain ⟨rfl, known⟩ := tableOf_ok ht
    obtain ⟨rfl, rfl⟩ := Prod.mk.inj (pure_ok_iff.1 h)
    obtain ⟨rfl, rfl⟩ := Prod.mk.inj (pure_ok_iff.1 h₁)
    cases hs : p.section? with
    | some id =>
      simp only [Registry.register, hs] at hrest
      have a := ih (by simp [same]) hrest
      dsimp only at a
      constructor
      case mapped => exact List.forall_mem_cons.2 ⟨known, a.mapped⟩
      case known => intro i; rw [a.known]; simp [hs]; grind
      all_goals
        simp [Slot.number, hs, a.referred, a.panes, a.creations, a.links, a.registered, a.names,
          a.resolved, a.pending, Slot.plan, Slot.creations, Slot.links, Registry.register,
          Registry.paneCount, NameIndex.addFrom]
    | none =>
      simp only [Registry.register, Registry.allocate, hs] at hrest
      have a := ih (by simp [same]) hrest
      dsimp only at a
      constructor
      case mapped => exact List.forall_mem_cons.2 ⟨known, a.mapped⟩
      case known => intro i; rw [a.known]; simp [hs]
      all_goals
        simp [Slot.number, hs, a.referred, a.panes, a.creations, a.links, a.registered, a.names,
          a.resolved, a.pending, Slot.plan, Slot.creations, Slot.links, Registry.register,
          Registry.allocate, Registry.paneCount, NameIndex.addFrom]

/-- What gathering stops at is the first pane whose table is not mapped. -/
theorem addPanes_error {tables : TableMap} {d : Draft} {ps : List Pane} {e : CompileError}
    (h : addPanes tables d ps = .error e) : ∃ p, ps.find? (fun p => !p.isMapped tables) = some p ∧
      ∃ name, p.table? = some name ∧ tables.get? name = none ∧
        e = .unknownTable name p.label tables.keys := by
  induction ps generalizing d with
  | nil => simp [addPanes] at h
  | cons p ps ih =>
    simp only [addPanes, addPane, bind_error_iff] at h
    rcases h with (h | ⟨_, -, h⟩) | ⟨⟨ref, d₁⟩, h₁, h | ⟨_, -, h⟩⟩
    · obtain ⟨name, named, unknown, rfl⟩ := tableOf_error h
      have here : (!p.isMapped tables) = true := by simp [Pane.isMapped, named, unknown]
      exact ⟨p, List.find?_cons_of_pos here, name, named, unknown, rfl⟩
    · simp [pure, Except.pure] at h
    · obtain ⟨t, ht, -⟩ := bind_ok_iff.1 h₁
      have here : p.isMapped tables = true := p.isMapped_iff.2 (tableOf_ok ht).2
      obtain ⟨q, hq, found⟩ := ih h
      refine ⟨q, ?_, found⟩
      rw [List.find?_cons, here, Bool.not_true, hq]
    · simp [pure, Except.pure] at h

/-! ## Lowering -/

variable {α : Type} [Scalar α]

mutual

/-- Lowering gathers the panes of the layout and arranges their references in its shape. It fails
exactly when the gathering does. -/
theorem lower_cases (tables : TableMap) : ∀ (t : Layout α) (d : Draft), t.Branching →
    (∃ n refs d', lower tables d t = .ok (n, d') ∧ addPanes tables d t.panes = .ok (refs, d') ∧
      n.leaves = refs ∧ t.shape = some n.shape) ∨
    (∃ e, lower tables d t = .error e ∧ addPanes tables d t.panes = .error e)
  | .pane p, d, _ => by
    simp only [lower, Layout.panes, addPanes]
    rcases addPane tables d p with e | ⟨ref, d'⟩
    · exact .inr ⟨e, rfl, rfl⟩
    · exact .inl ⟨.leaf ref, [ref], d', rfl, rfl, rfl, rfl⟩
  | .split axis cs ws, d, h => by
    simp only [lower, Layout.panes]
    rcases lowerAll_cases tables cs d h.2 with ⟨ns, refs, d', hl, ha, leaves, shapes, len⟩ | ⟨e, hl, ha⟩
    · have hlen : (Layout.sharesOf ws cs.length).length = ns.length := by
        rw [Layout.sharesOf_length, len]
      have hne : ns ≠ [] := by
        rintro rfl
        exact h.1 (List.length_eq_zero_iff.1 len)
      have some : (Native.chain axis ns (Layout.sharesOf ws cs.length)).isSome :=
        Native.chain_isSome hlen hne
      obtain ⟨n, hn⟩ := Option.isSome_iff_exists.1 some
      refine .inl ⟨n, refs, d', ?_, ha, ?_, ?_⟩
      · rw [hl]
        simp only [bind, Except.bind, hn]
        rfl
      · rw [Native.chain_leaves hlen hn, leaves]
      · rw [Layout.shape, shapes, Option.bind_some, Native.chain_shape, hn, Option.map_some]
    · exact .inr ⟨e, by rw [hl]; rfl, ha⟩

theorem lowerAll_cases (tables : TableMap) : ∀ (cs : List (Layout α)) (d : Draft),
    Layout.BranchingOf cs →
    (∃ ns refs d', lowerAll tables d cs = .ok (ns, d') ∧
      addPanes tables d (Layout.panesOf cs) = .ok (refs, d') ∧ ns.flatMap Native.leaves = refs ∧
      Layout.shapeOf cs = some (ns.map Native.shape) ∧ cs.length = ns.length) ∨
    (∃ e, lowerAll tables d cs = .error e ∧ addPanes tables d (Layout.panesOf cs) = .error e)
  | [], d, _ => .inl ⟨[], [], d, rfl, rfl, rfl, rfl, rfl⟩
  | c :: cs, d, h => by
    simp only [lowerAll, Layout.panesOf, addPanes_append]
    rcases lower_cases tables c d h.1 with ⟨n, refs, d₁, hl, ha, leaves, shape⟩ | ⟨e, hl, ha⟩
    · rw [hl, ha]
      rcases lowerAll_cases tables cs d₁ h.2 with
        ⟨ns, refs', d₂, hl', ha', leaves', shapes, len⟩ | ⟨e, hl', ha'⟩
      · refine .inl ⟨n :: ns, refs ++ refs', d₂, ?_, ?_, ?_, ?_, ?_⟩
        · simp only [bind, Except.bind, hl']
          rfl
        · simp only [bind, Except.bind, ha']
          rfl
        · simp [leaves, leaves']
        · simp [Layout.shapeOf, shape, shapes]
        · simp [len]
      · refine .inr ⟨e, ?_, ?_⟩
        · simp only [bind, Except.bind, hl']
        · simp only [bind, Except.bind, ha']
    · exact .inr ⟨e, by rw [hl]; rfl, by rw [ha]; rfl⟩

end

end Draft

/-! ## Plans -/

variable {α : Type} [Scalar α]

def Layout.slots (tables : TableMap) (t : Layout α) : List Slot := Slot.number tables 0 0 t.panes

omit [Scalar α] in
theorem Layout.slots_panes (tables : TableMap) (t : Layout α) :
    (t.slots tables).map (·.pane) = t.panes := Slot.number_panes 0 0 t.panes

omit [Scalar α] in
theorem Layout.pane_mem_of_slot {tables : TableMap} {t : Layout α} {s : Slot}
    (hs : s ∈ t.slots tables) : s.pane ∈ t.panes := by
  rw [← t.slots_panes tables]
  exact List.mem_map_of_mem hs

omit [Scalar α] in
theorem Layout.slots_getElem? {tables : TableMap} {t : Layout α} {i : Nat} {s : Slot}
    (h : (t.slots tables)[i]? = some s) : s.index = i ∧ t.panes[i]? = some s.pane := by
  have index := Slot.number_index h
  rw [Nat.zero_add] at index
  rw [← t.slots_panes tables, List.getElem?_map, h]
  exact ⟨index, rfl⟩

omit [Scalar α] in
theorem Layout.slots_of_pane (tables : TableMap) {t : Layout α} {i : Nat} {p : Pane}
    (h : t.panes[i]? = some p) : ∃ s, (t.slots tables)[i]? = some s ∧ s.pane = p := by
  rw [← t.slots_panes tables, List.getElem?_map] at h
  exact Option.map_eq_some_iff.1 h

namespace Plan

/-- The plan of a layout. -/
structure Draws (plan : Plan α) (tables : TableMap) (t : Layout α) : Prop where
  mapped : ∀ p ∈ t.panes, ∀ name, p.table? = some name → (tables.get? name).isSome
  panes : plan.panes = (t.slots tables).map (·.plan)
  creations : plan.creations = (t.slots tables).flatMap (·.creations)
  links : plan.links = (t.slots tables).flatMap (·.links)
  leaves : plan.layout.leaves = (t.slots tables).map (·.ref)
  shape : t.shape = some plan.layout.shape
  registered : plan.registry.panes = (t.slots tables).map (·.ref)
  names : plan.registry.names = .ofLayout t
  known : ∀ id, id ∈ plan.registry.known ↔ ∃ p ∈ t.panes, p.section? = some id
  resolved : plan.registry.resolved = ∅
  pending : plan.registry.pending = []

namespace Draws

variable {plan : Plan α} {tables : TableMap} {t : Layout α} (h : plan.Draws tables t)
include h

/-- The links of a plan are those of the panes, each with the reference of its owner. -/
theorem mem_links {l : PendingLink} : l ∈ plan.links ↔
    ∃ s ∈ t.slots tables, ∃ k, s.pane.link = some k ∧ l = ⟨s.index, s.ref, k.source, k⟩ := by
  rw [h.links, List.mem_flatMap]
  refine exists_congr fun s => and_congr_right fun _ => ?_
  unfold Slot.links Draft.linkOf
  cases s.pane.link <;> simp

theorem owners_eq : plan.links.map (·.ownerIndex) =
    (t.panes.zipIdx.filter fun x => x.1.link.isSome).map (·.2) := by
  rw [h.links]
  exact Slot.number_owners 0 0 t.panes

/-- The links stand in the order of their panes, at most one for each. -/
theorem owners_increasing : (plan.links.map (·.ownerIndex)).Pairwise (· < ·) := by
  rw [h.owners_eq]
  have indices : (t.panes.zipIdx.map (·.2)).Pairwise (· < ·) := by
    rw [List.zipIdx_map_snd]
    exact List.pairwise_lt_range'
  exact indices.sublist (List.filter_sublist.map _)

theorem pane_of_link {l : PendingLink} (hl : l ∈ plan.links) : ∃ p,
    t.panes[l.ownerIndex]? = some p ∧ p.link = some l.link ∧ l.target = l.link.source := by
  obtain ⟨s, hs, k, hk, rfl⟩ := h.mem_links.1 hl
  obtain ⟨i, hi, rfl⟩ := List.getElem_of_mem hs
  obtain ⟨index, pane⟩ := Layout.slots_getElem? (List.getElem?_eq_getElem hi)
  refine ⟨_, ?_, hk, rfl⟩
  rw [index]
  exact pane

theorem link_of_pane {i : Nat} {p : Pane} (hp : t.panes[i]? = some p) {k : Link}
    (hk : p.link = some k) : ∃ ref, ⟨i, ref, k.source, k⟩ ∈ plan.links := by
  obtain ⟨s, hs, rfl⟩ := Layout.slots_of_pane tables hp
  refine ⟨s.ref, h.mem_links.2 ⟨s, List.mem_of_getElem? hs, k, hk, ?_⟩⟩
  rw [(Layout.slots_getElem? hs).1]

theorem slot_of_creation {c : Creation} (hc : c ∈ plan.creations) : ∃ s ∈ t.slots tables,
    s.ref = .placeholder c.placeholder ∧ s.table = some c.table ∧ s.pane.section? = none := by
  rw [h.creations, List.mem_flatMap] at hc
  obtain ⟨s, hs, hc⟩ := hc
  refine ⟨s, hs, ?_⟩
  unfold Slot.creations Draft.creationOf at hc
  cases hp : s.pane with
  | new name type info =>
    rw [hp] at hc
    dsimp only at hc
    split at hc
    · next ref table =>
      obtain rfl := List.mem_singleton.1 hc
      exact ⟨ref, table, rfl⟩
    · cases hc
  | leaf id =>
    rw [hp] at hc
    cases hc
  | existing id info =>
    rw [hp] at hc
    cases hc

theorem table_of_creation {c : Creation} (hc : c ∈ plan.creations) :
    ∃ p ∈ t.panes, ∃ name, p.table? = some name ∧ tables.get? name = some c.table := by
  obtain ⟨s, hs, -, found, -⟩ := h.slot_of_creation hc
  rw [Slot.number_table hs] at found
  obtain ⟨name, hname, found⟩ := Option.bind_eq_some_iff.1 found
  exact ⟨s.pane, Layout.pane_mem_of_slot hs, name, hname, found⟩

theorem numbered (j : Nat) (p : PanePlan) (hp : plan.panes[j]? = some p) : p.index = j := by
  rw [h.panes, List.getElem?_map] at hp
  obtain ⟨s, hs, rfl⟩ := Option.map_eq_some_iff.1 hp
  exact (Layout.slots_getElem? hs).1

theorem index_lt {p : PanePlan} (hp : p ∈ plan.panes) : p.index < plan.panes.length := by
  obtain ⟨j, hj, rfl⟩ := List.getElem_of_mem hp
  rw [h.numbered j _ (List.getElem?_eq_getElem hj)]
  exact hj

theorem panes_length : plan.panes.length = t.panes.length := by
  rw [h.panes, List.length_map, ← List.length_map (·.pane), t.slots_panes]

theorem known_iff (id : SectionId) :
    id ∈ plan.registry.known ↔ ∃ p ∈ plan.panes, p.ref = .real id := by
  rw [h.known, h.panes, ← t.slots_panes tables]
  constructor
  · rintro ⟨p, hp, hid⟩
    obtain ⟨s, hs, rfl⟩ := List.mem_map.1 hp
    exact ⟨s.plan, List.mem_map_of_mem hs, (Slot.number_real hs id).2 hid⟩
  · rintro ⟨p, hp, hid⟩
    obtain ⟨s, hs, rfl⟩ := List.mem_map.1 hp
    exact ⟨s.pane, List.mem_map_of_mem hs, (Slot.number_real hs id).1 hid⟩

/-- Before anything is created only a section of the tree is a pane of the tree. -/
theorem mem_known_of_targetPane? {n : SectionId}
    (hn : (plan.registry.targetPane? (.id n)).isSome) : n ∈ plan.registry.known := by
  obtain ⟨i, hi⟩ := Option.isSome_iff_exists.1 hn
  obtain ⟨ref, hr, found⟩ := Registry.targetPane?_id hi
  have mem := List.mem_of_getElem? hr
  rw [h.registered] at mem
  obtain ⟨s, hs, rfl⟩ := List.mem_map.1 mem
  rw [h.known]
  cases href : s.ref with
  | real id =>
    rw [href] at found
    obtain rfl := Option.some.inj found
    exact ⟨s.pane, Layout.pane_mem_of_slot hs, (Slot.number_real hs _).1 href⟩
  | placeholder p =>
    rw [href, Registry.lookup, h.resolved] at found
    cases found

end Draws

theorem draws_of_lower {tables : TableMap} {t : Layout α} {n : Native α PaneRef} {d : Draft}
    {refs : List PaneRef} (ha : Draft.addPanes tables .empty t.panes = .ok (refs, d))
    (leaves : n.leaves = refs) (shape : t.shape = some n.shape) :
    Draws ⟨d.panes, d.creations, d.links, n, d.registry⟩ tables t := by
  have a := Draft.addPanes_adds rfl ha
  exact {
    mapped := a.mapped
    panes := a.panes
    creations := a.creations
    links := a.links
    leaves := leaves.trans a.referred
    shape := shape
    registered := a.registered.trans a.referred
    names := a.names
    known := fun id => by rw [a.known]; simp [Draft.empty, Registry.empty]
    resolved := a.resolved
    pending := a.pending }

theorem ofLayout_cases (tables : TableMap) {t : Layout α} (h : t.Branching) :
    (∃ plan, ofLayout tables t = .ok plan ∧ plan.Draws tables t) ∨
    (∃ p, t.panes.find? (fun p => !p.isMapped tables) = some p ∧
      ∃ name, p.table? = some name ∧ tables.get? name = none ∧
        ofLayout tables t = .error (.unknownTable name p.label tables.keys)) := by
  unfold ofLayout
  rcases Draft.lower_cases tables t .empty h with ⟨n, refs, d, hl, ha, leaves, shape⟩ | ⟨e, hl, ha⟩
  · exact .inl ⟨_, by rw [hl]; rfl, draws_of_lower ha leaves shape⟩
  · obtain ⟨p, hp, name, ht, hn, rfl⟩ := Draft.addPanes_error ha
    exact .inr ⟨p, hp, name, ht, hn, by rw [hl]; rfl⟩

theorem branching_of_validate {t : Layout α} (h : Layout.validate (some t) = []) : t.Branching := by
  simp only [Layout.validate, Layout.violations?, List.map_eq_nil_iff, Layout.violations,
    List.append_eq_nil_iff] at h
  exact Layout.branching_of_splitViolations h.1.2

theorem make_ok {t? : Option (Layout α)} {tables : TableMap} {plan : Plan α}
    (h : make t? tables = .ok plan) :
    ∃ t, t? = some t ∧ Layout.validate (some t) = [] ∧ plan.Draws tables t := by
  unfold make at h
  cases t? with
  | none => simp at h
  | some t =>
    simp only [List.isEmpty_iff] at h
    split at h
    · next valid =>
      refine ⟨t, rfl, valid, ?_⟩
      rcases ofLayout_cases tables (branching_of_validate valid) with
        ⟨plan', hp, draws⟩ | ⟨p, -, name, -, -, he⟩
      · obtain rfl := Except.ok.inj (hp.symm.trans h)
        exact draws
      · rw [he] at h
        cases h
    · cases h

theorem make_total {t : Layout α} {tables : TableMap} (valid : Layout.validate (some t) = [])
    (mapped : ∀ p ∈ t.panes, ∀ name, p.table? = some name → (tables.get? name).isSome) :
    ∃ plan, make (some t) tables = .ok plan ∧ plan.Draws tables t := by
  simp only [make, valid, List.isEmpty_nil, if_true]
  rcases ofLayout_cases tables (branching_of_validate valid) with
    made | ⟨p, hp, name, ht, hn, -⟩
  · exact made
  · have := mapped p (List.mem_of_find?_eq_some hp) name ht
    simp [hn] at this

end Plan
end PaneLayout
