import PaneLayout.Proofs.Pinning

set_option autoImplicit false

/-!
# Bound layouts are well-formed

A layout without violations that is bound to sections has none either, as long as the sections are
not zero and not in use. Its links by name have gone by sections, or denote nothing, and no pane is
left for which a table has to be known.
-/

namespace PaneLayout
namespace Layout

variable {α : Type} [Scalar α] {t t' : Layout α} {ids : List SectionId}

omit [Scalar α] in
theorem Unused.assignedSections_nodup (unused : t.Unused ids)
    (len : ids.length = t.newPanes.length) (distinct : t.sections.Nodup) :
    (Pane.assignedSections t.panes ids).Nodup := by
  rw [(Pane.assignedSections_perm len).nodup_iff]
  exact List.nodup_append.2 ⟨distinct, unused.distinct, fun old hold id given same =>
    unused.sections id given (same ▸ hold)⟩

/-- A layout without violations, and sections that it can be bound to. -/
structure Bindable (t : Layout α) (ids : List SectionId) : Prop extends t.Unused ids where
  valid : validate (some t) = []
  count : ids.length = t.newPanes.length
  nonzero : ∀ id ∈ ids, id ≠ ⟨0⟩

namespace Pinned

variable (h : t.Pinned ids t')
include h

theorem bond {b' : Bond} (hb' : b' ∈ t'.bonds) : ∃ b ∈ t.bonds, b'.index = b.index ∧
    b'.link = b.link.withSource (b.link.source.boundIn t t') := by
  obtain ⟨hp', hl'⟩ := mem_bonds.1 hb'
  obtain ⟨p, id, hp, -⟩ := h.pane hp'
  rw [h.link_eq hp hp'] at hl'
  obtain ⟨l, hl, same⟩ := Option.map_eq_some_iff.1 hl'
  exact ⟨⟨b'.index, p, l⟩, mem_bonds.2 ⟨hp, hl⟩, rfl, same.symm⟩

theorem table?_eq_none {p' : Pane} (hp' : p' ∈ t'.panes) : p'.table? = none := by
  obtain ⟨i, hi⟩ := List.mem_iff_getElem?.1 hp'
  obtain ⟨p, id, -, -, -, rfl⟩ := h.pane hi
  exact Pane.table?_settled _ p id

end Pinned

namespace Bindable

variable (bindable : t.Bindable ids) (h : t.Pinned ids t')
include bindable

theorem wellFormed : t.WellFormed := (validate_eq_nil_iff_wellFormed t).1 bindable.valid

include h

theorem sections_nodup : t'.sections.Nodup := by
  rw [show t'.sections = _ from h.sections_eq]
  exact bindable.assignedSections_nodup h.count bindable.wellFormed.distinct

theorem sections_nonzero {id : SectionId} (hid : id ∈ t'.sections) : id ≠ ⟨0⟩ := by
  rw [show t'.sections = _ from h.sections_eq, Pane.mem_assignedSections h.count] at hid
  rcases hid with old | given
  · exact bindable.wellFormed.nonzero id old
  · exact bindable.nonzero id given

/-- Two panes with one section are one pane. -/
theorem sectionAt_inj {i j : Nat} {s : SectionId} (hi : t'.sectionAt i = some s)
    (hj : t'.sectionAt j = some s) : i = j := by
  have distinct := bindable.assignedSections_nodup h.count bindable.wellFormed.distinct
  rw [h.sectionAt_eq] at hi hj
  obtain ⟨bound, -⟩ := List.getElem?_eq_some_iff.1 hi
  exact (List.getElem?_inj bound distinct).1 (hi.trans hj.symm)

theorem apart {b b' : Bond} (hb : b ∈ t.bonds) (hb' : b' ∈ t'.bonds) (index : b'.index = b.index)
    {n : SectionId} (target : b.link.source = .id n) : b'.pane.section? ≠ some n := by
  obtain ⟨hp, hl⟩ := mem_bonds.1 hb
  obtain ⟨hp', -⟩ := mem_bonds.1 hb'
  have here := h.sections_at hp
  rw [← index, sectionAt, hp', Option.bind_some] at here
  have old := bindable.wellFormed.apart b hb n target
  rw [here]
  cases own : b.pane.section? with
  | some id => rwa [own] at old
  | none =>
    exact fun given => bindable.targets n (List.mem_of_getElem? given) b.pane
      (List.mem_of_getElem? hp) b.link hl target

theorem apart_by_name {b b' : Bond} (hb : b ∈ t.bonds) (hb' : b' ∈ t'.bonds)
    (index : b'.index = b.index) {key : String} {i : Nat} {s : SectionId}
    (target : b.link.source = .name key) (only : t.denoted key = .unique i)
    (held : t'.sectionAt i = some s) : b'.pane.section? ≠ some s := by
  obtain ⟨hp', -⟩ := mem_bonds.1 hb'
  intro own
  have here : t'.sectionAt b'.index = some s := by rw [sectionAt, hp', Option.bind_some, own]
  obtain rfl := bindable.sectionAt_inj h held here
  exact bindable.wellFormed.apartByName b hb key target (index ▸ only)

/-- A target of a bound layout is a section of another pane, or of none, or it is a name that
nothing has. -/
theorem target_sound {b' : Bond} (hb' : b' ∈ t'.bonds) :
    (∃ s, b'.link.source = .id s ∧ s ≠ ⟨0⟩ ∧ b'.pane.section? ≠ some s) ∨
      ∃ key, b'.link.source = .name key ∧ t'.denoted key = .missing := by
  obtain ⟨b, hb, index, link⟩ := h.bond hb'
  have source : b'.link.source = b.link.source.boundIn t t' := by rw [link, Link.source_withSource]
  rw [source]
  rcases h.boundIn_cases b.link.source with ⟨n, target, pinned⟩ |
    ⟨key, i, s, target, only, held, pinned⟩ | ⟨key, target, loose, named⟩
  · refine .inl ⟨n, pinned, ?_, bindable.apart h hb hb' index target⟩
    rintro rfl
    exact bindable.wellFormed.sources b hb target
  · refine .inl ⟨s, pinned, ?_, bindable.apart_by_name h hb hb' index target only held⟩
    obtain ⟨p, hp, own⟩ := Option.bind_eq_some_iff.1 held
    exact bindable.sections_nonzero h (List.mem_filterMap.2 ⟨p, List.mem_of_getElem? hp, own⟩)
  · refine .inr ⟨key, named, ?_⟩
    rcases h.denoted_eq_or_missing key with same | missing
    · rw [same]
      cases found : t.denoted key with
      | unique i =>
        rw [found] at loose
        cases loose
      | ambiguous is => exact absurd found (bindable.wellFormed.clear b hb key is target)
      | missing => rfl
    · exact missing

theorem bondViolations_eq_nil {b' : Bond} (hb' : b' ∈ t'.bonds) :
    bondViolations t'.denoted b' = [] := by
  have columns : ∀ c ∈ b'.link.columns, Text.isBlank c = false := by
    obtain ⟨b, hb, -, link⟩ := h.bond hb'
    have same : b'.link.columns = b.link.columns := by
      rw [link, Link.columns, Link.sourceCol_withSource, Link.targetCol_withSource]
      rfl
    rw [same]
    exact bindable.wellFormed.columns b hb
  rw [bondViolations_eq_nil_iff]
  refine ⟨columns, ?_⟩
  rcases bindable.target_sound h hb' with ⟨s, source, nonzero, apart⟩ | ⟨key, source, missing⟩
  · rw [source]
    refine ⟨?_, ?_, fun _ named => ?_, fun _ _ named => ?_⟩
    · rintro ⟨⟩
      exact nonzero rfl
    · rintro _ ⟨⟩ -
      exact apart
    · cases named
    · cases named
  · rw [source]
    refine ⟨fun zero => ?_, fun _ numeric => ?_, ?_, ?_⟩
    · cases zero
    · cases numeric
    · rintro _ ⟨⟩ only
      rw [missing] at only
      cases only
    · rintro _ is ⟨⟩ several
      rw [missing] at several
      cases several

theorem valid_bound : validate (some t') = [] := by
  refine (validate_eq_nil_iff t').2 ⟨?_, ?_, (panes_clear_iff t').2 ⟨?_, ?_⟩⟩
  · rw [sectionViolations_eq_nil_iff]
    refine ⟨bindable.sections_nodup h, fun id hid => ?_⟩
    exact ⟨(SectionId.isValid_iff id).2 (bindable.sections_nonzero h hid), List.not_mem_nil⟩
  · rw [h.splits]
    exact ((validate_eq_nil_iff t).1 bindable.valid).2.1
  · intro p' hp' name named
    rw [h.table?_eq_none hp'] at named
    cases named
  · exact fun b' hb' => bindable.bondViolations_eq_nil h hb'

end Bindable

end Layout

/-- A layout without violations has none once its new panes have sections. It can be planned
whatever tables are known, and nothing is left to create. -/
theorem withSections_valid {α : Type} [Scalar α] {t : Layout α} {ids : List SectionId}
    (bindable : t.Bindable ids) : ∃ t', t.withSections ids = .ok t' ∧
      Layout.validate (some t') = [] ∧
      ∀ tables, ∃ plan, Plan.make (some t') tables = .ok plan ∧ plan.creations = [] := by
  obtain ⟨t', given, pinned⟩ := Layout.withSections_pinned bindable.count
  have valid := bindable.valid_bound pinned
  refine ⟨t', given, valid, fun tables => ?_⟩
  have mapped : ∀ p ∈ t'.panes, p.isMapped tables = true := by
    intro p hp
    refine p.isMapped_iff.2 fun name named => ?_
    rw [pinned.table?_eq_none hp] at named
    cases named
  obtain ⟨made, -, follows, -⟩ := Plan.make_iff t' tables
  obtain ⟨plan, ok⟩ := made.2 ⟨valid, mapped⟩
  refine ⟨plan, ok, ?_⟩
  have created := (follows plan ok).created
  rw [Layout.placeholders, pinned.newPanes_eq] at created
  exact List.map_eq_nil_iff.1 created

/-- The buyers and their order, with sections that come next. -/
theorem withSections_valid_buyers : Document.buyersLayout.Bindable [⟨8⟩, ⟨9⟩] ∧ ∃ t',
    Document.buyersLayout.withSections [⟨8⟩, ⟨9⟩] = .ok t' ∧ Layout.validate (some t') = [] ∧
    ∃ plan, Plan.make (some t') ∅ = .ok plan ∧ plan.creations = [] := by
  have bindable : Document.buyersLayout.Bindable [⟨8⟩, ⟨9⟩] := by
    constructor
    case toUnused => constructor <;> decide
    case valid => exact Document.buyers_compilable.valid
    case count => rfl
    case nonzero => decide
  obtain ⟨t', given, valid, planned⟩ := withSections_valid bindable
  exact ⟨bindable, t', given, valid, planned ∅⟩

end PaneLayout
