import PaneLayout.Proofs.Sections
import PaneLayout.Proofs.Validity

set_option autoImplicit false

/-!
# Layouts whose sections are assigned

What `Layout.withSections` makes of a layout. Its splits stay as they are, every pane is an
existing one with its assigned section, and every link that denotes a pane of the tree is pinned to
the section of that pane.
-/

namespace PaneLayout

namespace Pane

/-- The pane with the section `id`, unless it has one. -/
def settled (f : PaneInfo → PaneInfo) : Pane → SectionId → Pane
  | new _ _ info, id => existing id (f info)
  | p, _ => p.mapInfo f

variable (f : PaneInfo → PaneInfo) {p : Pane}

theorem settle_real {id : SectionId} (hp : p.section? = some id) (ids : List SectionId) :
    p.settle f ids = (p.settled f id, ids) := by
  cases p with
  | new table type info => cases hp
  | leaf _ => rfl
  | existing _ info => rfl

theorem settle_new (hp : p.section? = none) (id : SectionId) (ids : List SectionId) :
    p.settle f (id :: ids) = (p.settled f id, ids) := by
  cases p with
  | new table type info => rfl
  | leaf _ => cases hp
  | existing _ info => cases hp

theorem table?_settled (p : Pane) (id : SectionId) : (p.settled f id).table? = none := by
  cases p <;> rfl

theorem section?_settled (p : Pane) (id : SectionId) :
    (p.settled f id).section? = some (p.section?.getD id) := by
  cases p <;> rfl

/-! ## Panes in order -/

theorem map_section?_settled {ps : List Pane} {ids : List SectionId}
    (len : ids.length = newCount ps) :
    (List.zipWith (settled f) ps (assignedSections ps ids)).map section? =
      (assignedSections ps ids).map some := by
  induction ps generalizing ids with
  | nil => rfl
  | cons p ps ih =>
    cases hp : p.section? with
    | some id =>
      rw [newCount_cons_real hp] at len
      have here : (p.settled f id).section? = some id := by
        rw [section?_settled, hp, Option.getD_some]
      rw [assignedSections_real hp, List.zipWith_cons_cons, List.map_cons, List.map_cons, here,
        ih len]
    | none =>
      rw [newCount_cons_new hp] at len
      cases ids with
      | nil => cases len
      | cons id ids =>
        have here : (p.settled f id).section? = some id := by
          rw [section?_settled, hp, Option.getD_none]
        rw [assignedSections_new hp, List.zipWith_cons_cons, List.map_cons, List.map_cons, here,
          ih (Nat.succ.inj len)]

/-- Panes that all have sections need no others. -/
theorem assignedSections_of_real {ps : List Pane} {ss : List SectionId}
    (real : ps.map section? = ss.map some) (ids : List SectionId) :
    assignedSections ps ids = ss := by
  induction ps generalizing ss with
  | nil =>
    obtain rfl := List.map_eq_nil_iff.1 real.symm
    rfl
  | cons p ps ih =>
    cases ss with
    | nil => cases real
    | cons id ss =>
      obtain ⟨hp, real⟩ := List.cons.inj real
      rw [assignedSections_real hp, ih real]

theorem filterMap_section?_of_real {ps : List Pane} {ss : List SectionId}
    (real : ps.map section? = ss.map some) : ps.filterMap section? = ss := by
  have sections := congrArg (List.filterMap id) real
  rw [List.filterMap_map, List.filterMap_map] at sections
  exact sections.trans List.filterMap_some

theorem newCount_append (ps qs : List Pane) : newCount (ps ++ qs) = newCount ps + newCount qs := by
  rw [newCount, List.filter_append, List.length_append]
  rfl

theorem assignedSections_append {ps qs : List Pane} {xs : List SectionId}
    (len : xs.length = newCount ps) (ys : List SectionId) :
    assignedSections (ps ++ qs) (xs ++ ys) = assignedSections ps xs ++ assignedSections qs ys := by
  induction ps generalizing xs with
  | nil =>
    obtain rfl := List.length_eq_zero_iff.1 len
    rfl
  | cons p ps ih =>
    cases hp : p.section? with
    | some id =>
      rw [newCount_cons_real hp] at len
      rw [List.cons_append, assignedSections_real hp, assignedSections_real hp, ih len]
      rfl
    | none =>
      rw [newCount_cons_new hp] at len
      cases xs with
      | nil => cases len
      | cons x xs =>
        rw [List.cons_append, List.cons_append, assignedSections_new hp, assignedSections_new hp,
          ih (Nat.succ.inj len)]
        rfl

end Pane

namespace Layout

variable {α : Type} (f : PaneInfo → PaneInfo)

mutual

/-- The panes get the sections assigned to them, and what is not needed is left. -/
theorem settle_panes : ∀ (t : Layout α) {xs : List SectionId} (ys : List SectionId),
    xs.length = Pane.newCount t.panes →
    (t.settle f (xs ++ ys)).1.panes =
      List.zipWith (Pane.settled f) t.panes (Pane.assignedSections t.panes xs) ∧
    (t.settle f (xs ++ ys)).2 = ys
  | .pane p, xs, ys, len => by
    have single : (pane p : Layout α).panes = [p] := rfl
    rw [single] at len
    rw [settle, single]
    cases hp : p.section? with
    | some id =>
      rw [Pane.newCount_cons_real hp] at len
      obtain rfl := List.length_eq_zero_iff.1 len
      rw [Pane.settle_real f hp, Pane.assignedSections_real hp]
      exact ⟨rfl, rfl⟩
    | none =>
      rw [Pane.newCount_cons_new hp] at len
      obtain ⟨x, rfl⟩ := List.length_eq_one_iff.1 len
      rw [List.cons_append, Pane.settle_new f hp, Pane.assignedSections_new hp]
      exact ⟨rfl, rfl⟩
  | .split axis cs ws, xs, ys, len => settleOf_panes cs ys len

theorem settleOf_panes : ∀ (cs : List (Layout α)) {xs : List SectionId} (ys : List SectionId),
    xs.length = Pane.newCount (panesOf cs) →
    panesOf (settleOf f cs (xs ++ ys)).1 =
      List.zipWith (Pane.settled f) (panesOf cs) (Pane.assignedSections (panesOf cs) xs) ∧
    (settleOf f cs (xs ++ ys)).2 = ys
  | [], xs, ys, len => by
    obtain rfl := List.length_eq_zero_iff.1 len
    exact ⟨rfl, rfl⟩
  | c :: cs, xs, ys, len => by
    rw [panesOf, Pane.newCount_append] at len
    obtain ⟨as, bs, rfl, hxs, hbs⟩ : ∃ as bs, xs = as ++ bs ∧
        as.length = Pane.newCount c.panes ∧ bs.length = Pane.newCount (panesOf cs) := by
      refine ⟨_, _, (List.take_append_drop (Pane.newCount c.panes) xs).symm, ?_, ?_⟩
      · rw [List.length_take]
        omega
      · rw [List.length_drop]
        omega
    obtain ⟨first, left⟩ := settle_panes c (bs ++ ys) hxs
    obtain ⟨rest, left'⟩ := settleOf_panes cs ys hbs
    rw [settleOf, List.append_assoc]
    dsimp only
    rw [left, panesOf, panesOf, first, rest, Pane.assignedSections_append hxs,
      List.zipWith_append (Pane.assignedSections_length hxs).symm]
    exact ⟨rfl, left'⟩

end

theorem settleOf_length (cs : List (Layout α)) (ids : List SectionId) :
    (settleOf f cs ids).1.length = cs.length := by
  induction cs generalizing ids with
  | nil => rfl
  | cons c cs ih =>
    rw [settleOf, List.length_cons]
    exact congrArg (· + 1) (ih _)

variable [Scalar α]

mutual

theorem settle_shape : ∀ (t : Layout α) (ids : List SectionId),
    (t.settle f ids).1.shape = t.shape
  | .pane p, ids => rfl
  | .split axis cs ws, ids => by
    rw [settle, shape, shape, settleOf_shape cs ids, settleOf_length]

theorem settleOf_shape : ∀ (cs : List (Layout α)) (ids : List SectionId),
    shapeOf (settleOf f cs ids).1 = shapeOf cs
  | [], ids => rfl
  | c :: cs, ids => by
    rw [settleOf, shapeOf, shapeOf, settle_shape c ids, settleOf_shape cs]

end

mutual

theorem settle_splitViolations : ∀ (t : Layout α) (ids : List SectionId),
    splitViolations (t.settle f ids).1 = splitViolations t
  | .pane p, ids => rfl
  | .split axis cs ws, ids => by
    rw [settle, splitViolations, splitViolations, settleOf_splitViolations cs ids, settleOf_length]

theorem settleOf_splitViolations : ∀ (cs : List (Layout α)) (ids : List SectionId),
    splitViolationsOf (settleOf f cs ids).1 = splitViolationsOf cs
  | [], ids => rfl
  | c :: cs, ids => by
    rw [settleOf, splitViolationsOf, splitViolationsOf, settle_splitViolations c ids,
      settleOf_splitViolations cs]

end

end Layout

/-! ## Pinned layouts -/

theorem Link.withSource_source (l : Link) : l.withSource l.source = l := by
  cases l <;> rfl

def PaneInfo.pin (names : NameIndex) (ss : List SectionId) (i : PaneInfo) : PaneInfo :=
  { i with link := i.link.map (Pane.pin names ss) }

namespace Pane

variable (names : NameIndex) (ss : List SectionId) (p : Pane) (id : SectionId)

theorem link_settled : (p.settled (.pin names ss) id).link = p.link.map (pin names ss) := by
  cases p <;> rfl

theorem title_settled : (p.settled (.pin names ss) id).title = p.title := by
  cases p <;> rfl

theorem description_settled :
    (p.settled (.pin names ss) id).description = p.description := by
  cases p <;> rfl

/-- A link that denotes a section is pinned to it. -/
theorem pin_of_sectionIn {names : NameIndex} {ss : List SectionId} {l : Link} {id : SectionId}
    (h : l.source.sectionIn names ss = some id) : pin names ss l = l.withSource (.id id) := by
  unfold pin
  cases hs : l.source with
  | id n =>
    rw [hs] at h
    obtain rfl : n = id := Option.some.inj h
    have same := l.withSource_source
    rw [hs] at same
    exact same.symm
  | name key =>
    rw [hs] at h
    dsimp only
    rw [show (names.resolve key).unique?.bind (ss[·]?) = some id from h]

end Pane

namespace Layout

variable {α : Type} [Scalar α]

omit [Scalar α] in
theorem newPanes_eq_nil_of_real {t : Layout α} {ss : List SectionId}
    (real : t.panes.map Pane.section? = ss.map some) : t.newPanes = [] := by
  rw [newPanes, List.filter_eq_nil_iff]
  intro p hp
  have own := List.mem_map_of_mem (f := Pane.section?) hp
  rw [real] at own
  obtain ⟨id, -, hid⟩ := List.mem_map.1 own
  rw [Pane.isNew, Pane.table?_isSome_iff, ← hid]
  exact Option.some_ne_none id

omit [Scalar α] in
theorem few_of_old {t : Layout α} (old : t.newPanes = []) : t.newPanes.length ≤ UInt32.size := by
  rw [old]
  exact Nat.zero_le _

/-- The layout `t'` is `t` with the sections `ids` for its new panes. -/
structure Pinned (t : Layout α) (ids : List SectionId) (t' : Layout α) : Prop where
  count : ids.length = Pane.newCount t.panes
  panes : t'.panes = List.zipWith
    (Pane.settled (.pin (.ofLayout t) (Pane.assignedSections t.panes ids))) t.panes
    (Pane.assignedSections t.panes ids)
  shape : t'.shape = t.shape
  splits : splitViolations t' = splitViolations t

theorem withSections_pinned {t : Layout α} {ids : List SectionId}
    (len : ids.length = t.newPanes.length) :
    ∃ t', t.withSections ids = .ok t' ∧ t.Pinned ids t' := by
  refine ⟨_, if_pos len.symm, len, ?_, settle_shape _ t ids, settle_splitViolations _ t ids⟩
  have panes := (settle_panes (.pin (.ofLayout t) (Pane.assignedSections t.panes ids)) t [] len).1
  rw [List.append_nil] at panes
  exact panes

namespace Pinned

variable {t t' : Layout α} {ids : List SectionId} (h : t.Pinned ids t')
include h

theorem map_section? :
    t'.panes.map Pane.section? = (Pane.assignedSections t.panes ids).map some := by
  rw [h.panes]
  exact Pane.map_section?_settled _ h.count

theorem assignedSections_eq (ids' : List SectionId) :
    Pane.assignedSections t'.panes ids' = Pane.assignedSections t.panes ids :=
  Pane.assignedSections_of_real h.map_section? ids'

theorem sections_eq :
    t'.panes.filterMap Pane.section? = Pane.assignedSections t.panes ids :=
  Pane.filterMap_section?_of_real h.map_section?

theorem newPanes_eq : t'.newPanes = [] := newPanes_eq_nil_of_real h.map_section?

theorem pane {i : Nat} {p' : Pane} (hp' : t'.panes[i]? = some p') : ∃ p id,
    t.panes[i]? = some p ∧ (Pane.assignedSections t.panes ids)[i]? = some id ∧
    p'.section? = some id ∧
    p' = p.settled (.pin (.ofLayout t) (Pane.assignedSections t.panes ids)) id := by
  have real := congrArg (·[i]?) h.map_section?
  simp only [List.getElem?_map, hp', Option.map_some] at real
  rw [h.panes, List.getElem?_zipWith_eq_some] at hp'
  obtain ⟨p, id, hp, hid, rfl⟩ := hp'
  rw [hid] at real
  exact ⟨p, id, hp, hid, Option.some.inj real, rfl⟩

theorem pane_of {i : Nat} {p : Pane} (hp : t.panes[i]? = some p) : ∃ id,
    t'.panes[i]? =
      some (p.settled (.pin (.ofLayout t) (Pane.assignedSections t.panes ids)) id) := by
  obtain ⟨id, hid, -⟩ := Pane.assignedSections_getElem? h.count hp
  refine ⟨id, ?_⟩
  rw [h.panes, List.getElem?_zipWith, hp, hid]

end Pinned
end Layout
end PaneLayout
