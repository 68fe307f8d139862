import PaneLayout.Proofs.Numbering
import PaneLayout.Proofs.Violations

set_option autoImplicit false

/-!
# Layouts bound to sections

What becomes of a layout whose new panes are given sections. Splits, panes and texts stay, a link by
the name of a pane goes by its section, and it leads to the same pane as before unless an earlier
one has that section too. A layout that is bound is not changed by binding it again.
-/

namespace PaneLayout

/-! ## Registries of panes -/

namespace Registry

/-- Registers panes one after the other. -/
def fill (r : Registry) (ps : List Pane) : Registry := ps.foldl (fun r p => (r.register p).2) r

def ofPanes (ps : List Pane) : Registry := empty.fill ps

theorem names_fill (r : Registry) (ps : List Pane) :
    (r.fill ps).names = r.names.addFrom r.paneCount ps := by
  induction ps generalizing r with
  | nil => rfl
  | cons p ps ih =>
    have names : (r.register p).2.names = r.names.add r.paneCount p := by
      unfold register
      cases p.section? <;> rfl
    have count : (r.register p).2.paneCount = r.paneCount + 1 := by
      unfold register paneCount
      cases p.section? <;> exact List.length_append
    rw [NameIndex.addFrom, ← names, ← count]
    exact ih (r.register p).2

/-- As long as no placeholder is given a section only the panes that exist have one. -/
theorem lookups_fill {r : Registry} (blank : r.resolved = ∅) (ps : List Pane) :
    (r.fill ps).panes.map (r.fill ps).lookup = r.panes.map r.lookup ++ ps.map Pane.section? := by
  induction ps generalizing r with
  | nil => exact (List.append_nil _).symm
  | cons p ps ih =>
    have still : (r.register p).2.resolved = r.resolved := by
      unfold register
      cases p.section? <;> rfl
    have same : (r.register p).2.lookup = r.lookup := by
      funext ref
      cases ref with
      | real id => rfl
      | placeholder q => exact congrArg (SortedMap.get? · q) still
    have added : (r.register p).2.panes.map r.lookup = r.panes.map r.lookup ++ [p.section?] := by
      unfold register
      cases p.section? with
      | some id => exact List.map_append
      | none =>
        refine List.map_append.trans (congrArg (r.panes.map r.lookup ++ [·]) ?_)
        rw [lookup, blank]
        rfl
    have rest := ih (still.trans blank)
    rw [same, added, List.append_assoc] at rest
    exact rest

theorem targetPane?_ofPanes_name (ps : List Pane) (key : String) :
    (ofPanes ps).targetPane? (.name key) = (Pane.denoted ps key).unique? := by
  have names : (ofPanes ps).names = .ofPanes ps := empty.names_fill ps
  rw [targetPane?, names, NameIndex.resolve_ofPanes]

theorem targetPane?_ofPanes_id (ps : List Pane) (n : SectionId) :
    (ofPanes ps).targetPane? (.id n) = ps.findIdx? fun p => p.section? = some n := by
  have lookups : (ofPanes ps).panes.map (ofPanes ps).lookup = ps.map Pane.section? :=
    lookups_fill (r := empty) rfl ps
  have found := congrArg (List.findIdx? fun s => decide (s = some n)) lookups
  rw [List.findIdx?_map, List.findIdx?_map] at found
  exact found

end Registry

/-! ## Sections given out -/

namespace Pane

variable {ps : List Pane} {ids : List SectionId}

/-- The new panes get the sections in order, all others keep theirs. -/
theorem assignedSections_at (len : ids.length = newCount ps) {i : Nat} {p : Pane}
    (hp : ps[i]? = some p) :
    (assignedSections ps ids)[i]? = (p.section? <|> ids[newCount (ps.take i)]?) := by
  induction ps generalizing ids i with
  | nil => cases hp
  | cons q ps ih =>
    cases hq : q.section? with
    | some id =>
      rw [newCount_cons_real hq] at len
      rw [assignedSections_real hq]
      cases i with
      | zero =>
        obtain rfl := Option.some.inj hp
        rw [hq]
        rfl
      | succ i =>
        rw [List.take_succ_cons, newCount_cons_real hq]
        exact ih len hp
    | none =>
      rw [newCount_cons_new hq] at len
      cases ids with
      | nil => cases len
      | cons id ids =>
        rw [assignedSections_new hq]
        cases i with
        | zero =>
          obtain rfl := Option.some.inj hp
          rw [hq]
          rfl
        | succ i =>
          rw [List.take_succ_cons, newCount_cons_new hq, List.getElem?_cons_succ,
            List.getElem?_cons_succ]
          exact ih (Nat.succ.inj len) hp

/-- A section that is not given out is where it was. -/
theorem findIdx?_assignedSections (len : ids.length = newCount ps) {n : SectionId} (old : n ∉ ids) :
    ((assignedSections ps ids).findIdx? fun id => id = n) =
      ps.findIdx? fun p => p.section? = some n := by
  induction ps generalizing ids with
  | nil => rfl
  | cons p ps ih =>
    cases hp : p.section? with
    | some id =>
      rw [newCount_cons_real hp] at len
      rw [assignedSections_real hp, List.findIdx?_cons, List.findIdx?_cons, ih len old, hp]
      simp only [Option.some.injEq]
    | none =>
      rw [newCount_cons_new hp] at len
      cases ids with
      | nil => cases len
      | cons id ids =>
        obtain ⟨apart, old⟩ := not_or.1 (mt List.mem_cons.2 old)
        rw [assignedSections_new hp, List.findIdx?_cons, List.findIdx?_cons,
          ih (Nat.succ.inj len) old, hp]
        simp [Ne.symm apart]

theorem mem_assignedSections (len : ids.length = newCount ps) {n : SectionId} :
    n ∈ assignedSections ps ids ↔ n ∈ ps.filterMap section? ∨ n ∈ ids := by
  rw [(assignedSections_perm len).mem_iff, List.mem_append]

/-- A section that is given out is given to one pane. -/
theorem assignedSections_inj (len : ids.length = newCount ps) (distinct : ids.Nodup)
    (apart : ∀ id ∈ ids, id ∉ ps.filterMap section?) {n : SectionId} (given : n ∈ ids) {i j : Nat}
    (hi : (assignedSections ps ids)[i]? = some n) (hj : (assignedSections ps ids)[j]? = some n) :
    i = j := by
  induction ps generalizing ids i j with
  | nil => cases hi
  | cons p ps ih =>
    cases hp : p.section? with
    | some id =>
      rw [newCount_cons_real hp] at len
      rw [assignedSections_real hp] at hi hj
      rw [List.filterMap_cons_some hp] at apart
      have other : id ≠ n := fun same => apart n given (same ▸ List.mem_cons_self)
      have rest := fun x hx held => apart x hx (List.mem_cons_of_mem id held)
      cases i with
      | zero => exact absurd (Option.some.inj hi) other
      | succ i => cases j with
        | zero => exact absurd (Option.some.inj hj) other
        | succ j => exact congrArg (· + 1) (ih len distinct rest given hi hj)
    | none =>
      rw [newCount_cons_new hp] at len
      rw [List.filterMap_cons_none hp] at apart
      cases ids with
      | nil => cases len
      | cons id ids =>
        replace len := Nat.succ.inj len
        rw [assignedSections_new hp] at hi hj
        obtain ⟨once, distinct⟩ := List.nodup_cons.1 distinct
        -- The first id is at the front and nowhere else.
        have other : n ∈ assignedSections ps ids → id ≠ n := by
          rintro later rfl
          exact ((mem_assignedSections len).1 later).elim (apart id List.mem_cons_self) once
        have rest := fun x hx => apart x (List.mem_cons_of_mem id hx)
        cases i with
        | zero => cases j with
          | zero => rfl
          | succ j => exact absurd (Option.some.inj hi) (other (List.mem_of_getElem? hj))
        | succ i => cases j with
          | zero => exact absurd (Option.some.inj hj) (other (List.mem_of_getElem? hi))
          | succ j =>
            have ne := other (List.mem_of_getElem? hi)
            have later := (List.mem_cons.1 given).resolve_left (Ne.symm ne)
            exact congrArg (· + 1) (ih len distinct rest later hi hj)

end Pane

/-! ## Names and links -/

namespace Pane

theorem carriers_congr {field field' : Pane → Option String} {ps qs : List Pane}
    (same : ps.map field = qs.map field') (key : String) (i : Nat) :
    carriers field key i ps = carriers field' key i qs := by
  induction ps generalizing qs i with
  | nil =>
    obtain rfl := List.map_eq_nil_iff.1 same.symm
    rfl
  | cons p ps ih => cases qs with
    | nil => cases same
    | cons q qs =>
      obtain ⟨here, rest⟩ := List.cons.inj same
      rw [carriers_cons, carriers_cons, here, ih rest]

/-- A pane that has a section and whose link is pinned stays as it is. -/
theorem settled_self {p : Pane} {id : SectionId} {names : NameIndex} {ss : List SectionId}
    (own : p.section? = some id) (pinned : ∀ l, p.link = some l → pin names ss l = l) :
    p.settled (.pin names ss) id = p := by
  have kept (i : PaneInfo) (still : ∀ l, i.link = some l → pin names ss l = l) :
      i.pin names ss = i := by
    obtain ⟨name, title, description, link⟩ := i
    cases link with
    | none => rfl
    | some l => exact congrArg (PaneInfo.mk name title description) (congrArg some (still l rfl))
  cases p with
  | leaf s => rfl
  | new table type info => cases own
  | existing s info => exact congrArg (existing s) (kept info pinned)

end Pane

theorem Layout.pane_of_unique {α : Type} {t : Layout α} {key : String} {i : Nat}
    (only : (t.denoted key).unique? = some i) : ∃ p, t.panes[i]? = some p := by
  have here : i ∈ (t.denoted key).indices := by
    rw [NameMatch.unique?_eq_some only]
    exact List.mem_singleton_self i
  obtain ⟨p, hp, -⟩ := Layout.carries_of_mem_indices here
  exact ⟨p, hp⟩

/-! ## Bound layouts -/

namespace Layout

variable {α : Type}

mutual

/-- The splits and their weights, with blank panes. -/
def frame : Layout α → Layout α
  | pane _ => pane (.leaf ⟨0⟩)
  | split axis cs ws => split axis (frameOf cs) ws

def frameOf : List (Layout α) → List (Layout α)
  | [] => []
  | c :: cs => frame c :: frameOf cs

end

def sectionAt (t : Layout α) (i : Nat) : Option SectionId := t.panes[i]?.bind Pane.section?

end Layout

/-- The section of the pane that a name denotes, in the place of the name. -/
def LinkTarget.boundIn {α : Type} (t t' : Layout α) : LinkTarget → LinkTarget
  | .id n => .id n
  | .name key => match (t.denoted key).unique?.bind t'.sectionAt with
    | some s => .id s
    | none => .name key

namespace Layout

variable {α : Type}

/-- The layout `t'` is `t` with the sections `ids` for its new panes. -/
structure Bound (t : Layout α) (ids : List SectionId) (t' : Layout α) : Prop where
  frame : t'.frame = t.frame
  length : t'.panes.length = t.panes.length
  old : t'.newPanes = []
  /-- The new pane that follows `k` others has the section `ids[k]`. -/
  sections : ∀ (i : Nat) p, t.panes[i]? = some p →
    t'.sectionAt i = (p.section? <|> ids[t.newBefore i]?)
  texts : ∀ (i : Nat) p p', t.panes[i]? = some p → t'.panes[i]? = some p' →
    p'.name = p.name ∧ p'.title = p.title ∧ p'.description = p.description
  links : ∀ (i : Nat) p p', t.panes[i]? = some p → t'.panes[i]? = some p' →
    p'.link = p.link.map fun l => l.withSource (l.source.boundIn t t')

/-- Ids that no pane of the layout has and that no link goes by. -/
structure Unused (t : Layout α) (ids : List SectionId) : Prop where
  distinct : ids.Nodup
  sections : ∀ id ∈ ids, id ∉ t.sections
  targets : ∀ id ∈ ids, ∀ p ∈ t.panes, ∀ l, p.link = some l → l.source ≠ .id id

/-- The first pane with the section of pane `i`; a new one has none to share. -/
def leader (t : Layout α) (i : Nat) : Nat :=
  match t.sectionAt i with
  | some id => (t.panes.findIdx? fun p => p.section? = some id).getD i
  | none => i

/-- An earlier pane has the section of pane `i`. -/
def Shadowed (t : Layout α) (i : Nat) : Prop :=
  ∃ k < i, ∃ id, t.sectionAt k = some id ∧ t.sectionAt i = some id

/-- The links of `t'` lead where those of `t` led. -/
structure LeadsAlike (t t' : Layout α) : Prop where
  leader : ∀ (j : Nat) p p' l l', t.panes[j]? = some p → t'.panes[j]? = some p' →
    p.link = some l → p'.link = some l' →
    (Registry.ofPanes t'.panes).targetPane? l'.source =
      ((Registry.ofPanes t.panes).targetPane? l.source).map t.leader
  /-- The pane is the same, unless the link goes by a name and the section comes before. -/
  same : ∀ (j : Nat) p l i, t.panes[j]? = some p → p.link = some l →
    (Registry.ofPanes t.panes).targetPane? l.source = some i →
    (t.leader i = i ↔ ∀ key, l.source = .name key → ¬ t.Shadowed i)

/-! ## The first pane with a section -/

section Leader

variable {t : Layout α} {i : Nat} {id : SectionId}

theorem leader_new (new : t.sectionAt i = none) : t.leader i = i := by
  rw [leader, new]

/-- What a numeric target leads to. -/
theorem findIdx?_sectionAt (own : t.sectionAt i = some id) :
    (t.panes.findIdx? fun p => p.section? = some id) = some (t.leader i) := by
  rw [leader, own]
  dsimp only
  cases found : t.panes.findIdx? fun p => p.section? = some id with
  | some j => rfl
  | none =>
    obtain ⟨p, hp, here⟩ := Option.bind_eq_some_iff.1 own
    have none := List.findIdx?_eq_none_iff.1 found p (List.mem_of_getElem? hp)
    exact absurd here (of_decide_eq_false none)

theorem sectionAt_leader (own : t.sectionAt i = some id) :
    t.sectionAt (t.leader i) = some id ∧ ∀ k < t.leader i, t.sectionAt k ≠ some id := by
  obtain ⟨bound, held, first⟩ := List.findIdx?_eq_some_iff_getElem.1 (findIdx?_sectionAt own)
  constructor
  · rw [sectionAt, List.getElem?_eq_getElem bound]
    exact of_decide_eq_true held
  · intro k before other
    rw [sectionAt, List.getElem?_eq_getElem (Nat.lt_trans before bound)] at other
    exact first k before (decide_eq_true other)

theorem leader_of_id {n : SectionId}
    (leads : (Registry.ofPanes t.panes).targetPane? (.id n) = some i) : t.leader i = i := by
  rw [Registry.targetPane?_ofPanes_id] at leads
  obtain ⟨bound, held, -⟩ := List.findIdx?_eq_some_iff_getElem.1 leads
  have own : t.sectionAt i = some n := by
    rw [sectionAt, List.getElem?_eq_getElem bound]
    exact of_decide_eq_true held
  exact Option.some.inj ((findIdx?_sectionAt own).symm.trans leads)

theorem leader_eq_self_iff : t.leader i = i ↔ ¬ t.Shadowed i := by
  cases own : t.sectionAt i with
  | none =>
    refine iff_of_true (leader_new own) ?_
    rintro ⟨k, -, id, -, held⟩
    rw [own] at held
    cases held
  | some id =>
    obtain ⟨held, first⟩ := sectionAt_leader own
    constructor
    · rintro same ⟨k, before, id', hk, hi⟩
      obtain rfl := Option.some.inj (own.symm.trans hi)
      exact first k (same.symm ▸ before) hk
    · intro alone
      by_contra apart
      rcases Nat.lt_or_gt_of_ne apart with before | after
      · exact alone ⟨_, before, id, held, own⟩
      · exact first i after own

end Leader

/-! ## Frames -/

mutual

theorem settle_frame (f : PaneInfo → PaneInfo) : ∀ (t : Layout α) (ids : List SectionId),
    (t.settle f ids).1.frame = t.frame
  | .pane p, ids => rfl
  | .split axis cs ws, ids => by rw [settle, frame, frame, settleOf_frame f cs ids]

theorem settleOf_frame (f : PaneInfo → PaneInfo) : ∀ (cs : List (Layout α)) (ids : List SectionId),
    frameOf (settleOf f cs ids).1 = frameOf cs
  | [], ids => rfl
  | c :: cs, ids => by rw [settleOf, frameOf, frameOf, settle_frame f c ids, settleOf_frame f cs]

end

mutual

/-- Where every pane stays as it is the layout does. -/
theorem settle_self {f : PaneInfo → PaneInfo} : ∀ (t : Layout α) (ids : List SectionId),
    (∀ p ∈ t.panes, p.settle f ids = (p, ids)) → t.settle f ids = (t, ids)
  | .pane p, ids, still => by rw [settle, still p List.mem_cons_self]
  | .split axis cs ws, ids, still => by rw [settle, settleOf_self cs ids still]

theorem settleOf_self {f : PaneInfo → PaneInfo} : ∀ (cs : List (Layout α)) (ids : List SectionId),
    (∀ p ∈ panesOf cs, p.settle f ids = (p, ids)) → settleOf f cs ids = (cs, ids)
  | [], ids, still => rfl
  | c :: cs, ids, still => by
    obtain ⟨first, rest⟩ := List.forall_mem_append.1 still
    rw [settleOf, settle_self c ids first]
    dsimp only
    rw [settleOf_self cs ids rest]

end

/-! ## What a bound layout is -/

variable [Scalar α] {t t' : Layout α} {ids : List SectionId}

namespace Pinned

variable (h : t.Pinned ids t')
include h

theorem sectionAt_eq (i : Nat) : t'.sectionAt i = (Pane.assignedSections t.panes ids)[i]? := by
  have at_i := congrArg (·[i]?) h.map_section?
  simp only [List.getElem?_map] at at_i
  unfold sectionAt
  cases hp : t'.panes[i]? with
  | some p =>
    rw [hp] at at_i
    obtain ⟨id, found, own⟩ := Option.map_eq_some_iff.1 at_i.symm
    rw [Option.bind_some, found, own]
  | none =>
    rw [hp] at at_i
    exact (Option.map_eq_none_iff.1 at_i.symm).symm

theorem sectionAt_isSome {i : Nat} {p : Pane} (hp : t.panes[i]? = some p) :
    ∃ s, t'.sectionAt i = some s := by
  obtain ⟨id, hid, -⟩ := Pane.assignedSections_getElem? h.count hp
  exact ⟨id, (h.sectionAt_eq i).trans hid⟩

theorem sections_at {i : Nat} {p : Pane} (hp : t.panes[i]? = some p) :
    t'.sectionAt i = (p.section? <|> ids[t.newBefore i]?) := by
  rw [h.sectionAt_eq]
  exact Pane.assignedSections_at h.count hp

theorem map_eq {β : Type} {f : Pane → β}
    (same : ∀ p id, f (p.settled
      (.pin (.ofLayout t) (Pane.assignedSections t.panes ids)) id) = f p) :
    t'.panes.map f = t.panes.map f := by
  apply List.ext_getElem?
  intro i
  rw [List.getElem?_map, List.getElem?_map]
  cases hp : t.panes[i]? with
  | some p =>
    obtain ⟨id, hp'⟩ := h.pane_of hp
    rw [hp', Option.map_some, Option.map_some, same]
  | none =>
    have beyond := List.getElem?_eq_none_iff.1 hp
    rw [← h.length_eq] at beyond
    rw [List.getElem?_eq_none beyond]

theorem link_eq {i : Nat} {p p' : Pane} (hp : t.panes[i]? = some p) (hp' : t'.panes[i]? = some p') :
    p'.link = p.link.map fun l => l.withSource (l.source.boundIn t t') := by
  obtain ⟨id, -, -, rfl⟩ := h.pane_eq hp hp'
  rw [Pane.link_settled]
  congr 1
  funext l
  unfold Pane.pin
  cases hl : l.source with
  | id n => exact (hl ▸ l.withSource_source).symm
  | name key =>
    dsimp only [LinkTarget.boundIn]
    rw [resolve_ofLayout, show t'.sectionAt = _ from funext h.sectionAt_eq]
    cases (t.denoted key).unique?.bind ((Pane.assignedSections t.panes ids)[·]?) with
    | some id => rfl
    | none => exact (hl ▸ l.withSource_source).symm

/-- A name keeps its meaning in the bound layout, where no pane is known by a table any more. -/
theorem denoted_eq_or_missing (key : String) :
    t'.denoted key = t.denoted key ∨ t'.denoted key = .missing := by
  have names := Pane.carriers_congr (h.map_eq fun p id => Pane.name_settled _ _ p id) key 0
  have titles := Pane.carriers_congr (h.map_eq fun p id => Pane.title_settled _ _ p id) key 0
  have tables : Pane.carriers Pane.table? key 0 t'.panes = [] := by
    refine List.eq_nil_iff_forall_not_mem.2 fun i held => ?_
    obtain ⟨p', hp', own⟩ := Pane.mem_carriers.1 held
    obtain ⟨p, id, -, -, -, rfl⟩ := h.pane hp'
    rw [Pane.table?_settled] at own
    cases own
  rw [denoted, denoted, Pane.denoted, Pane.denoted, names, titles, tables]
  by_cases blank : key = ""
  · exact .inr (if_pos blank)
  · rw [if_neg blank, if_neg blank]
    cases NameMatch.among? (Pane.carriers Pane.name key 0 t.panes) with
    | some m => exact .inl rfl
    | none => cases NameMatch.among? (Pane.carriers Pane.title key 0 t.panes) with
      | some m => exact .inl rfl
      | none => exact .inr rfl

theorem denoted_loose {key : String} (loose : (t.denoted key).unique? = none) :
    (t'.denoted key).unique? = none := by
  rcases h.denoted_eq_or_missing key with same | missing
  · rw [same, loose]
  · rw [missing]
    rfl

theorem frame_eq (given : t.withSections ids = .ok t') : t'.frame = t.frame := by
  have len : t.newPanes.length = ids.length := h.count.symm
  rw [withSections, if_pos len] at given
  obtain rfl := Except.ok.inj given
  exact settle_frame _ t ids

theorem bound (given : t.withSections ids = .ok t') : t.Bound ids t' where
  frame := h.frame_eq given
  length := h.length_eq
  old := h.newPanes_eq
  sections _ _ hp := h.sections_at hp
  texts _ p _ hp hp' := by
    obtain ⟨id, -, -, rfl⟩ := h.pane_eq hp hp'
    exact ⟨p.name_settled _ _ id, p.title_settled _ _ id, p.description_settled _ _ id⟩
  links _ _ _ hp hp' := h.link_eq hp hp'

/-- A link goes by a section as before, by that of the pane that its name denotes, or by a name that
denotes none. -/
theorem boundIn_cases (target : LinkTarget) :
    (∃ n, target = .id n ∧ target.boundIn t t' = .id n) ∨
    (∃ key i s, target = .name key ∧ t.denoted key = .unique i ∧ t'.sectionAt i = some s ∧
      target.boundIn t t' = .id s) ∨
    ∃ key, target = .name key ∧ (t.denoted key).unique? = none ∧
      target.boundIn t t' = .name key := by
  cases target with
  | id n => exact .inl ⟨n, rfl, rfl⟩
  | name key =>
    refine .inr ?_
    cases only : (t.denoted key).unique? with
    | none =>
      refine .inr ⟨key, rfl, only, ?_⟩
      rw [LinkTarget.boundIn, only]
      rfl
    | some i =>
      obtain ⟨p, hp⟩ := pane_of_unique only
      obtain ⟨s, held⟩ := h.sectionAt_isSome hp
      refine .inl ⟨key, i, s, rfl, NameMatch.unique?_eq_some only, held, ?_⟩
      rw [LinkTarget.boundIn, only, Option.bind_some, held]

/-- Every link of a bound layout is pinned already. -/
theorem pin_self {p' : Pane} (hp' : p' ∈ t'.panes) (ss : List SectionId) {l' : Link}
    (hl' : p'.link = some l') : Pane.pin (.ofLayout t') ss l' = l' := by
  obtain ⟨i, hi⟩ := List.mem_iff_getElem?.1 hp'
  obtain ⟨p, id, hp, -⟩ := h.pane hi
  rw [h.link_eq hp hi] at hl'
  obtain ⟨l, -, rfl⟩ := Option.map_eq_some_iff.1 hl'
  have source := l.source_withSource (l.source.boundIn t t')
  have numeric {s : SectionId} (by_id : l.source.boundIn t t' = .id s) :
      Pane.pin (.ofLayout t') ss (l.withSource (l.source.boundIn t t')) =
        l.withSource (l.source.boundIn t t') := by
    unfold Pane.pin
    rw [source, by_id]
  rcases h.boundIn_cases l.source with ⟨n, -, pinned⟩ | ⟨-, -, s, -, -, -, pinned⟩ |
    ⟨key, -, loose, named⟩
  · exact numeric pinned
  · exact numeric pinned
  · refine Pane.pin_of_not_unique (fun k only => ?_) ss (source.trans named)
    rw [resolve_ofLayout] at only
    have none := h.denoted_loose loose
    rw [only] at none
    cases none

theorem withSections_nil : t'.withSections [] = .ok t' := by
  have len : t'.newPanes.length = ([] : List SectionId).length :=
    congrArg List.length h.newPanes_eq
  rw [withSections, if_pos len]
  refine congrArg (fun x => Except.ok x.1) (t'.settle_self [] fun p hp => ?_)
  obtain ⟨i, hi⟩ := List.mem_iff_getElem?.1 hp
  obtain ⟨-, id, -, -, own, -⟩ := h.pane hi
  exact (Pane.settle_real _ own []).trans
    (congrArg (·, []) (Pane.settled_self own fun l hl => h.pin_self hp _ hl))

theorem targetPane?_id (n : SectionId) : (Registry.ofPanes t'.panes).targetPane? (.id n) =
    (Pane.assignedSections t.panes ids).findIdx? (· = n) := by
  have found := congrArg (List.findIdx? fun s => decide (s = some n)) h.map_section?
  rw [List.findIdx?_map, List.findIdx?_map] at found
  rw [Registry.targetPane?_ofPanes_id]
  exact found.trans (congrArg (List.findIdx? · _) (funext fun s => by simp))

/-- A section that was there before leads where it led. -/
theorem targetPane?_old {n : SectionId} (old : n ∉ ids) :
    (Registry.ofPanes t'.panes).targetPane? (.id n) =
      (Registry.ofPanes t.panes).targetPane? (.id n) := by
  rw [h.targetPane?_id, Pane.findIdx?_assignedSections h.count old, Registry.targetPane?_ofPanes_id]

/-- A section that is given out leads to the pane that gets it. -/
theorem targetPane?_given (unused : t.Unused ids) {n : SectionId} (given : n ∈ ids) {i : Nat}
    (held : t'.sectionAt i = some n) :
    (Registry.ofPanes t'.panes).targetPane? (.id n) = some i := by
  rw [h.sectionAt_eq] at held
  rw [h.targetPane?_id]
  cases found : (Pane.assignedSections t.panes ids).findIdx? (· = n) with
  | none =>
    have none := List.findIdx?_eq_none_iff.1 found n (List.mem_of_getElem? held)
    exact absurd rfl (of_decide_eq_false none)
  | some j =>
    obtain ⟨bound, here, -⟩ := List.findIdx?_eq_some_iff_getElem.1 found
    have at_j : (Pane.assignedSections t.panes ids)[j]? = some n :=
      (List.getElem?_eq_getElem bound).trans (congrArg some (of_decide_eq_true here))
    exact congrArg some
      (Pane.assignedSections_inj h.count unused.distinct unused.sections given at_j held)

/-- The section of pane `i` leads to it, or to the first pane that has it. -/
theorem targetPane?_section (unused : t.Unused ids) {i : Nat} {p : Pane} {s : SectionId}
    (hp : t.panes[i]? = some p) (held : t'.sectionAt i = some s) :
    (Registry.ofPanes t'.panes).targetPane? (.id s) = some (t.leader i) := by
  have here := h.sections_at hp
  have own : t.sectionAt i = p.section? := by rw [sectionAt, hp, Option.bind_some]
  cases hs : p.section? with
  | some id =>
    rw [hs] at own here
    obtain rfl := Option.some.inj (here.symm.trans held)
    have old : id ∉ ids := fun given =>
      unused.sections id given (List.mem_filterMap.2 ⟨p, List.mem_of_getElem? hp, hs⟩)
    rw [h.targetPane?_old old, Registry.targetPane?_ofPanes_id, findIdx?_sectionAt own]
  | none =>
    rw [hs] at own here
    have given : s ∈ ids := List.mem_of_getElem? (here.symm.trans held)
    rw [h.targetPane?_given unused given held, leader_new own]

theorem leadsAlike (unused : t.Unused ids) : t.LeadsAlike t' where
  leader j p p' l l' hp hp' hl hl' := by
    rw [h.link_eq hp hp', hl, Option.map_some] at hl'
    obtain rfl := Option.some.inj hl'
    rw [l.source_withSource]
    cases hs : l.source with
    | id n =>
      have old : n ∉ ids := fun given =>
        unused.targets n given p (List.mem_of_getElem? hp) l hl hs
      rw [LinkTarget.boundIn, h.targetPane?_old old]
      cases found : (Registry.ofPanes t.panes).targetPane? (.id n) with
      | none => rfl
      | some i =>
        rw [Option.map_some, leader_of_id found]
    | name key =>
      rw [Registry.targetPane?_ofPanes_name]
      change _ = (t.denoted key).unique?.map t.leader
      rw [LinkTarget.boundIn]
      cases only : (t.denoted key).unique? with
      | none =>
        rw [Option.bind_none, Registry.targetPane?_ofPanes_name]
        exact h.denoted_loose only
      | some i =>
        obtain ⟨q, hq⟩ := pane_of_unique only
        obtain ⟨s, held⟩ := h.sectionAt_isSome hq
        rw [Option.bind_some, held]
        exact h.targetPane?_section unused hq held
  same j p l i hp hl leads := by
    cases hs : l.source with
    | id n =>
      rw [hs] at leads
      refine iff_of_true (leader_of_id leads) fun key named => ?_
      cases named
    | name key =>
      rw [leader_eq_self_iff]
      exact ⟨fun alone _ _ => alone, fun alone => alone key rfl⟩

end Pinned

omit [Scalar α] in
theorem withSections_error_iff {e : AssignError} : t.withSections ids = .error e ↔
    ids.length ≠ t.newPanes.length ∧ e = ⟨ids.length, t.newPanes.length⟩ := by
  unfold withSections
  split
  case isTrue len => exact iff_of_false (fun h => nomatch h) fun h => h.1 len.symm
  case isFalse len =>
    rw [Except.error.injEq]
    exact ⟨fun same => ⟨Ne.symm len, same.symm⟩, fun h => h.2.symm⟩

end Layout

open Layout

/-- A layout can be given as many sections as it has new panes. The result is the layout bound to
them, its links lead where they led as long as the sections are unused, and it is not changed by
binding it again. -/
theorem withSections_binds {α : Type} [Scalar α] (t : Layout α) (ids : List SectionId) :
    (∀ e, t.withSections ids = .error e ↔
      ids.length ≠ t.newPanes.length ∧ e = ⟨ids.length, t.newPanes.length⟩) ∧
    ∀ t', t.withSections ids = .ok t' →
      t.Bound ids t' ∧ (t.Unused ids → t.LeadsAlike t') ∧ t'.withSections [] = .ok t' := by
  refine ⟨fun e => withSections_error_iff, fun t' given => ?_⟩
  have len : ids.length = t.newPanes.length := by
    by_contra differ
    rw [withSections_error_iff.2 ⟨differ, rfl⟩] at given
    cases given
  obtain ⟨t₁, given₁, pinned⟩ := withSections_pinned len
  obtain rfl := Except.ok.inj (given.symm.trans given₁)
  exact ⟨pinned.bound given, pinned.leadsAlike, pinned.withSections_nil⟩

/-- The buyers and their order, bound to sections that come next. -/
theorem withSections_binds_buyers : ∃ t',
    Document.buyersLayout.withSections [⟨8⟩, ⟨9⟩] = .ok t' ∧
    Document.buyersLayout.Unused [⟨8⟩, ⟨9⟩] ∧
    Document.buyersLayout.Bound [⟨8⟩, ⟨9⟩] t' ∧ Document.buyersLayout.LeadsAlike t' ∧
    t'.withSections [] = .ok t' := by
  have len : ([⟨8⟩, ⟨9⟩] : List SectionId).length = Document.buyersLayout.newPanes.length := rfl
  obtain ⟨t', given, -⟩ := withSections_pinned len
  have unused : Document.buyersLayout.Unused [⟨8⟩, ⟨9⟩] := by
    constructor <;> decide
  obtain ⟨bound, leads, again⟩ := (withSections_binds _ _).2 t' given
  exact ⟨t', given, unused, bound, leads unused, again⟩

/-- Two panes with one section, and a link to the second of them by its name. -/
def Layout.twins : Layout Rat :=
  .split .horizontal [
    .pane (.leaf ⟨5⟩),
    .pane (.existing ⟨5⟩ ⟨some "b", none, none, none⟩),
    .pane (.existing ⟨6⟩ ⟨none, none, none, some (.syncedWith (.name "b"))⟩)]
    none

/-- The name denotes the second pane, and the section in its place the first. -/
theorem twins_lead_astray : Layout.twins.Unused [] ∧ ∃ t',
    Layout.twins.withSections [] = .ok t' ∧
    (Layout.twins.panes[2]?.bind Pane.link).map Link.source = some (.name "b") ∧
    (Registry.ofPanes Layout.twins.panes).targetPane? (.name "b") = some 1 ∧
    (t'.panes[2]?.bind Pane.link).map Link.source = some (.id ⟨5⟩) ∧
    (Registry.ofPanes t'.panes).targetPane? (.id ⟨5⟩) = some 0 := by
  have len : ([] : List SectionId).length = Layout.twins.newPanes.length := rfl
  obtain ⟨t', given, pinned⟩ := withSections_pinned len
  have unused : Layout.twins.Unused [] := by
    constructor <;> decide
  have denoted : Layout.twins.denoted "b" = .unique 1 := by decide
  refine ⟨unused, t', given, rfl, ?_, ?_, ?_⟩
  · rw [Registry.targetPane?_ofPanes_name, ← Layout.denoted, denoted]
    rfl
  · rw [pinned.panes]
    decide +kernel
  · rw [pinned.targetPane?_id]
    decide

end PaneLayout
