import PaneLayout.Layout.Assign
import PaneLayout.Proofs.Creating

set_option autoImplicit false

/-!
# The sections of the panes

Once every creation of a plan is made, every pane has a section. As long as there are no more new
panes than placeholders, these are the sections that `Pane.assignedSections` gives out.
-/

namespace PaneLayout

theorem Pane.assignedSections_real {p : Pane} {id : SectionId} (hp : p.section? = some id)
    (ps : List Pane) (ids : List SectionId) :
    assignedSections (p :: ps) ids = id :: assignedSections ps ids := by
  simp [assignedSections, hp]

theorem Pane.assignedSections_new {p : Pane} (hp : p.section? = none) (ps : List Pane)
    (id : SectionId) (ids : List SectionId) :
    assignedSections (p :: ps) (id :: ids) = id :: assignedSections ps ids := by
  simp [assignedSections, hp]

namespace Pane

def newCount (ps : List Pane) : Nat := (ps.filter isNew).length

variable {ps : List Pane}

theorem newCount_cons_real {p : Pane} {id : SectionId} (hp : p.section? = some id) :
    newCount (p :: ps) = newCount ps := by
  have old : ¬ p.isNew = true := by
    rw [isNew, table?_isSome_iff, hp]
    simp
  rw [newCount, List.filter_cons_of_neg old]
  rfl

theorem newCount_cons_new {p : Pane} (hp : p.section? = none) :
    newCount (p :: ps) = newCount ps + 1 := by
  have new : p.isNew = true := (table?_isSome_iff p).2 hp
  rw [newCount, List.filter_cons_of_pos new]
  rfl

/-- The assigned sections are those that were there and those that are given out. -/
theorem assignedSections_perm {ids : List SectionId} (len : ids.length = newCount ps) :
    (assignedSections ps ids).Perm (ps.filterMap section? ++ ids) := by
  induction ps generalizing ids with
  | nil =>
    obtain rfl := List.length_eq_zero_iff.1 len
    exact .refl _
  | cons p ps ih =>
    cases hp : p.section? with
    | some id =>
      rw [newCount_cons_real hp] at len
      rw [assignedSections_real hp, List.filterMap_cons_some hp]
      exact (ih len).cons id
    | none =>
      rw [newCount_cons_new hp] at len
      cases ids with
      | nil => cases len
      | cons id ids =>
        rw [assignedSections_new hp, List.filterMap_cons_none hp]
        exact ((ih (Nat.succ.inj len)).cons id).trans List.perm_middle.symm

theorem assignedSections_length {ids : List SectionId} (len : ids.length = newCount ps) :
    (assignedSections ps ids).length = ps.length := by
  induction ps generalizing ids with
  | nil => rfl
  | cons p ps ih =>
    cases hp : p.section? with
    | some id =>
      rw [newCount_cons_real hp] at len
      rw [assignedSections_real hp, List.length_cons, List.length_cons, ih len]
    | none =>
      rw [newCount_cons_new hp] at len
      cases ids with
      | nil => cases len
      | cons id ids =>
        rw [assignedSections_new hp, List.length_cons, List.length_cons, ih (Nat.succ.inj len)]

/-- A pane keeps its section, and a new one gets one of `ids`. -/
theorem assignedSections_getElem? {ids : List SectionId} (len : ids.length = newCount ps) {i : Nat}
    {p : Pane} (hp : ps[i]? = some p) : ∃ id, (assignedSections ps ids)[i]? = some id ∧
      (p.section? = some id ∨ p.section? = none ∧ id ∈ ids) := by
  induction ps generalizing ids i with
  | nil => cases hp
  | cons q ps ih =>
    cases hq : q.section? with
    | some j =>
      rw [newCount_cons_real hq] at len
      rw [assignedSections_real hq]
      cases i with
      | zero =>
        obtain rfl := Option.some.inj hp
        exact ⟨j, rfl, .inl hq⟩
      | succ i => exact ih len hp
    | none =>
      rw [newCount_cons_new hq] at len
      cases ids with
      | nil => cases len
      | cons id ids =>
        rw [assignedSections_new hq]
        cases i with
        | zero =>
          obtain rfl := Option.some.inj hp
          exact ⟨id, rfl, .inr ⟨hq, List.mem_cons_self⟩⟩
        | succ i =>
          obtain ⟨j, hj, found⟩ := ih (Nat.succ.inj len) hp
          exact ⟨j, hj, found.imp_right fun h => ⟨h.1, List.mem_cons_of_mem id h.2⟩⟩

end Pane

namespace Slot

variable {tables : TableMap} {ps : List Pane}

/-! ## Placeholders -/

def placeholders (ss : List Slot) : List PlaceholderId :=
  (ss.flatMap (·.creations)).map (·.placeholder)

theorem placeholders_cons_real (i : Nat) (k : UInt32) {p : Pane} {id : SectionId}
    (hp : p.section? = some id) :
    placeholders (number tables i k (p :: ps)) = placeholders (number tables (i + 1) k ps) := by
  rw [number, hp]
  cases p with
  | new table type info => cases hp
  | leaf => rfl
  | existing => rfl

theorem placeholders_cons_new (i : Nat) (k : UInt32) {p : Pane} (hp : p.section? = none)
    (mapped : ∀ name, p.table? = some name → (tables.get? name).isSome) :
    placeholders (number tables i k (p :: ps)) =
      ⟨k + 1⟩ :: placeholders (number tables (i + 1) (k + 1) ps) := by
  rw [number, hp]
  cases p with
  | new table type info =>
    obtain ⟨t, ht⟩ := Option.isSome_iff_exists.1 (mapped table rfl)
    simp [placeholders, creations, Draft.creationOf, Pane.table?, ht]
  | leaf => cases hp
  | existing => cases hp

/-- The new panes get the placeholders that follow `k`. -/
theorem number_placeholders (i : Nat) (k : UInt32)
    (mapped : ∀ p ∈ ps, ∀ name, p.table? = some name → (tables.get? name).isSome) :
    placeholders (number tables i k ps) =
      (List.range (Pane.newCount ps)).map fun j => ⟨k + UInt32.ofNat (j + 1)⟩ := by
  induction ps generalizing i k with
  | nil => rfl
  | cons p ps ih =>
    obtain ⟨mp, mps⟩ := List.forall_mem_cons.1 mapped
    cases hp : p.section? with
    | some id => rw [placeholders_cons_real i k hp, Pane.newCount_cons_real hp, ih _ _ mps]
    | none =>
      rw [placeholders_cons_new i k hp mp, Pane.newCount_cons_new hp, ih _ _ mps,
        List.range_succ_eq_map, List.map_cons, List.map_map]
      congr 1
      apply List.map_congr_left
      intro j hj
      simp only [Function.comp_apply, PlaceholderId.mk.injEq, Nat.succ_eq_add_one]
      rw [UInt32.add_assoc, UInt32.add_comm 1, ← UInt32.ofNat_one, ← UInt32.ofNat_add]

theorem number_placeholders_length (i : Nat) (k : UInt32)
    (mapped : ∀ p ∈ ps, ∀ name, p.table? = some name → (tables.get? name).isSome) :
    (placeholders (number tables i k ps)).length = Pane.newCount ps := by
  rw [number_placeholders i k mapped, List.length_map, List.length_range]

theorem number_placeholders_nodup (i : Nat) (k : UInt32)
    (mapped : ∀ p ∈ ps, ∀ name, p.table? = some name → (tables.get? name).isSome)
    (few : Pane.newCount ps ≤ UInt32.size) : (placeholders (number tables i k ps)).Nodup := by
  rw [number_placeholders i k mapped, List.Nodup, List.pairwise_map]
  refine List.Pairwise.imp_of_mem ?_ List.nodup_range
  intro a b ha hb ne same
  rw [List.mem_range] at ha hb
  have same := congrArg (fun p : PlaceholderId => p.raw.toNat) same
  simp only [UInt32.toNat_add, UInt32.toNat_ofNat'] at same
  rw [UInt32.size] at few
  omega

/-! ## Assigned sections -/

/-- Once the placeholders have the sections `ids`, the panes have their assigned ones. -/
theorem number_lookup {r : Registry} (i : Nat) (k : UInt32) (ids : List SectionId)
    (mapped : ∀ p ∈ ps, ∀ name, p.table? = some name → (tables.get? name).isSome)
    (len : (placeholders (number tables i k ps)).length = ids.length)
    (given : ∀ x ∈ (placeholders (number tables i k ps)).zip ids, r.resolved.get? x.1 = some x.2) :
    (number tables i k ps).map (fun s => r.lookup s.ref) =
      (Pane.assignedSections ps ids).map some := by
  induction ps generalizing i k ids with
  | nil => rfl
  | cons p ps ih =>
    obtain ⟨mp, mps⟩ := List.forall_mem_cons.1 mapped
    cases hp : p.section? with
    | some id =>
      rw [placeholders_cons_real i k hp] at len given
      rw [number, hp, Pane.assignedSections_real hp]
      dsimp only
      rw [List.map_cons, List.map_cons, ih _ _ ids mps len given]
      rfl
    | none =>
      rw [placeholders_cons_new i k hp mp] at len given
      cases ids with
      | nil => simp at len
      | cons id ids =>
        rw [List.zip_cons_cons] at given
        obtain ⟨first, rest⟩ := List.forall_mem_cons.1 given
        rw [number, hp, Pane.assignedSections_new hp]
        dsimp only
        rw [List.map_cons, List.map_cons, ih _ _ ids mps (by simpa using len) rest]
        exact congrArg (· :: (Pane.assignedSections ps ids).map some) first

theorem lookup_isSome_of_number {r : Registry} {i : Nat} {k : UInt32}
    (mapped : ∀ p ∈ ps, ∀ name, p.table? = some name → (tables.get? name).isSome)
    (given : ∀ p ∈ placeholders (number tables i k ps), (r.resolved.get? p).isSome) {s : Slot}
    (hs : s ∈ number tables i k ps) : (r.lookup s.ref).isSome := by
  induction ps generalizing i k with
  | nil => simp [number] at hs
  | cons p ps ih =>
    obtain ⟨mp, mps⟩ := List.forall_mem_cons.1 mapped
    cases hp : p.section? with
    | some id =>
      rw [placeholders_cons_real i k hp] at given
      rw [number, hp] at hs
      rcases List.mem_cons.1 hs with rfl | hs
      · rfl
      · exact ih mps given hs
    | none =>
      rw [placeholders_cons_new i k hp mp] at given
      obtain ⟨first, rest⟩ := List.forall_mem_cons.1 given
      rw [number, hp] at hs
      rcases List.mem_cons.1 hs with rfl | hs
      · exact first
      · exact ih mps rest hs

end Slot

/-! ## Plans whose creations are made -/

namespace Plan.Draws

variable {α : Type} [Scalar α] {plan : Plan α} {tables : TableMap} {t : Layout α}
  (h : plan.Draws tables t) {d : Document α} {r : Registry}
include h

theorem placeholders_eq :
    plan.creations.map (·.placeholder) = Slot.placeholders (t.slots tables) := by
  rw [h.creations]
  rfl

theorem creations_length : plan.creations.length = t.newPanes.length := by
  rw [← List.length_map (·.placeholder), h.placeholders_eq]
  exact Slot.number_placeholders_length 0 0 h.mapped

theorem placeholders_nodup (few : t.newPanes.length ≤ UInt32.size) :
    (plan.creations.map (·.placeholder)).Nodup := by
  rw [h.placeholders_eq]
  exact Slot.number_placeholders_nodup 0 0 h.mapped few

theorem lookup_isSome {s : Slot} (hs : s ∈ t.slots tables) :
    ((Compile.registryAfter d r plan.creations).lookup s.ref).isSome := by
  refine Slot.lookup_isSome_of_number h.mapped ?_ hs
  intro p hp
  rw [Compile.registryAfter, Registry.resolved_given]
  refine (SortedMap.contains_insertAll _ _ p).2 (.inr ?_)
  rw [Compile.given_placeholders, h.placeholders_eq]
  exact hp

theorem lookup_eq (few : t.newPanes.length ≤ UInt32.size) :
    (t.slots tables).map (fun s => (Compile.registryAfter d r plan.creations).lookup s.ref) =
      (Pane.assignedSections t.panes (d.nextSections t.newPanes.length)).map some := by
  have length : (Slot.placeholders (t.slots tables)).length =
      (d.nextSections t.newPanes.length).length := by
    rw [d.nextSections_length]
    exact Slot.number_placeholders_length 0 0 h.mapped
  refine Slot.number_lookup 0 0 _ h.mapped length ?_
  intro x hx
  rw [Compile.registryAfter, Registry.resolved_given]
  refine SortedMap.get?_insertAll_of_mem ?_ ?_
  · rw [Compile.given_placeholders]
    exact h.placeholders_nodup few
  · rw [h.placeholders_eq, h.creations_length]
    exact hx

end Plan.Draws

/-! ## The sources of links -/

/-- The section that a link target denotes in a layout whose panes have the sections `ss`. -/
def LinkTarget.sectionIn (names : NameIndex) (ss : List SectionId) : LinkTarget → Option SectionId
  | .id n => some n
  | .name key => (names.resolve key).unique?.bind (ss[·]?)

namespace Compile

variable {α : Type} {d : Document α} {r : Registry}

theorem registryAfter_append (d : Document α) (r : Registry) (cs cs' : List Creation) :
    ∃ xs, registryAfter d r (cs ++ cs') = (registryAfter d r cs).given xs ∧
      xs.map (·.1) = cs'.map (·.placeholder) := by
  induction cs' generalizing cs with
  | nil => exact ⟨[], by rw [List.append_nil]; rfl, rfl⟩
  | cons c cs' ih =>
    obtain ⟨xs, hr, hxs⟩ := ih (cs ++ [c])
    rw [List.append_assoc, registryAfter_concat] at hr
    exact ⟨(c.placeholder, ⟨d.lastSection + UInt32.ofNat (cs.length + 1)⟩) :: xs, hr, by
      rw [List.map_cons, List.map_cons, hxs]⟩

/-- What a target denotes on the way it still denotes at the end. -/
theorem lookupTarget_of_prefix {cs cs' : List Creation} (le : cs' <+: cs)
    (distinct : (cs.map (·.placeholder)).Nodup) (none : r.resolved = ∅) {target : LinkTarget}
    {id : SectionId} (h : (registryAfter d r cs').lookupTarget target = some id) :
    (registryAfter d r cs).lookupTarget target = some id := by
  obtain ⟨rest, rfl⟩ := le
  obtain ⟨xs, hr, hxs⟩ := registryAfter_append d r cs' rest
  rw [List.map_append, List.nodup_append] at distinct
  rw [hr]
  refine Registry.lookupTarget_given ?_ h
  intro p hp
  rw [hxs] at hp
  rw [registryAfter, Registry.resolved_given, SortedMap.get?_insertAll_of_notMem, none]
  · rfl
  · rw [given_placeholders]
    intro before
    exact distinct.2.2 p before p hp rfl

end Compile

/-- The section that a registry has for a pane. -/
theorem Layout.section_of_lookup {α : Type} {tables : TableMap} {t : Layout α} {r : Registry}
    {ss : List SectionId} (panes : r.panes = (t.slots tables).map (·.ref))
    (sections : (t.slots tables).map (fun s => r.lookup s.ref) = ss.map some) {j : Nat}
    {ref : PaneRef} {id : SectionId} (href : r.panes[j]? = some ref) (hid : r.lookup ref = some id) :
    ss[j]? = some id := by
  rw [panes, List.getElem?_map] at href
  obtain ⟨slot, hslot, rfl⟩ := Option.map_eq_some_iff.1 href
  have at_j := congrArg (·[j]?) sections
  simp only [List.getElem?_map, hslot, Option.map_some, hid] at at_j
  obtain ⟨k, hk, same⟩ := Option.map_eq_some_iff.1 at_j.symm
  rw [hk, same]

/-- A registry that knows the sections of all panes reads a target as the layout does. -/
theorem Layout.sectionIn_of_lookupTarget {α : Type} {tables : TableMap} {t : Layout α}
    {r : Registry} {ss : List SectionId} (names : r.names = .ofLayout t)
    (panes : r.panes = (t.slots tables).map (·.ref))
    (sections : (t.slots tables).map (fun s => r.lookup s.ref) = ss.map some) {target : LinkTarget}
    {id : SectionId} (h : r.lookupTarget target = some id) :
    target.sectionIn (.ofLayout t) ss = some id := by
  cases target with
  | id n =>
    obtain ⟨rfl, -⟩ := Registry.lookupTarget_id h
    rfl
  | name key =>
    obtain ⟨i, ref, hi, href, hid⟩ := Registry.lookupTarget_name h
    rw [LinkTarget.sectionIn, ← names, hi, NameMatch.unique?, Option.bind_some]
    exact section_of_lookup panes sections href hid

end PaneLayout
