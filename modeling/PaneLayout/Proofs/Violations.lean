import Mathlib.Data.List.Dedup
import Mathlib.Data.List.Perm.Basic
import PaneLayout.Proofs.Naming
import PaneLayout.Proofs.Validity
import PaneLayout.Scalar.Rational

set_option autoImplicit false

/-!
# The report on a layout, kind by kind

What a well-formed layout is, and what is wrong with one that is not: for each kind of violation,
where in the tree it is found. The report is made up of just these, so that none hides another, and
it is empty exactly for the well-formed layouts.
-/

namespace PaneLayout

def Link.columns (l : Link) : List String := l.sourceCol.toList ++ l.targetCol.toList

/-- A pane that has a link, and its index. -/
structure Bond where
  index : Nat
  pane : Pane
  link : Link

namespace Layout

variable {α : Type}

def sections (t : Layout α) : List SectionId := t.panes.filterMap Pane.section?

def bonds (t : Layout α) : List Bond :=
  t.panes.zipIdx.filterMap fun x => x.1.link.map (⟨x.2, x.1, ·⟩)

structure WellFormed [Scalar α] (t : Layout α) : Prop where
  nonzero : ∀ id ∈ t.sections, id ≠ ⟨0⟩
  distinct : t.sections.Nodup
  children : ∀ axis cs ws, split axis cs ws ∈ t.nodes → 2 ≤ cs.length
  counted : ∀ axis cs ws, split axis cs (some ws) ∈ t.nodes → ws.length = cs.length
  weights : ∀ axis cs ws, split axis cs (some ws) ∈ t.nodes →
    ∀ w ∈ ws, Scalar.isPositive w = true
  tables : ∀ p ∈ t.panes, ∀ name, p.table? = some name → Text.isBlank name = false
  columns : ∀ b ∈ t.bonds, ∀ c ∈ b.link.columns, Text.isBlank c = false
  sources : ∀ b ∈ t.bonds, b.link.source ≠ .id ⟨0⟩
  apart : ∀ b ∈ t.bonds, ∀ id, b.link.source = .id id → b.pane.section? ≠ some id
  apartByName : ∀ b ∈ t.bonds, ∀ key, b.link.source = .name key →
    t.denoted key ≠ .unique b.index
  clear : ∀ b ∈ t.bonds, ∀ key is, b.link.source = .name key → t.denoted key ≠ .ambiguous is

/-! ## What can be wrong -/

/-- An id that `k` panes have, unless it is zero, is reported `k - 1` times. -/
def duplicates (t : Layout α) : List Violation :=
  (t.sections.dedup.filter (·.isValid)).flatMap fun id =>
    List.replicate (t.sections.count id - 1) (.duplicateSection id)

def fewChildren : Layout α → List Violation
  | pane _ => []
  | split axis cs _ =>
    if cs.length < 2 then [.tooFewChildren (axis.label cs.length) cs.length] else []

def unevenWeights : Layout α → List Violation
  | split axis cs (some ws) =>
    if ws.length = cs.length then []
    else [.weightCount (axis.label cs.length) ws.length cs.length]
  | _ => []

def badWeights [Scalar α] : Layout α → List Violation
  | split axis cs (some ws) => (ws.zipIdx.filter fun x => !Scalar.isPositive x.1).map fun x =>
    .badWeight (axis.label cs.length) x.2 (Scalar.text x.1)
  | _ => []

end Layout

def Pane.zeroSection (p : Pane) : List Violation :=
  if p.section? = some ⟨0⟩ then [.reservedSection p.label] else []

def Pane.blankTable (p : Pane) (i : Nat) : List Violation :=
  if p.table?.any Text.isBlank then [.emptyTable i] else []

namespace Bond

def blankColumns (b : Bond) : List Violation :=
  (b.link.columns.filter Text.isBlank).map fun _ => .emptyColumn b.pane.label b.link.kind

def zeroSource (b : Bond) : List Violation :=
  if b.link.source = .id ⟨0⟩ then [.reservedSource b.pane.label] else []

/-- A pane of section zero does not count as linked to itself. -/
def toItself (b : Bond) : List Violation :=
  match b.link.source with
  | .id id => if id ≠ ⟨0⟩ ∧ b.pane.section? = some id then [.selfLink b.pane.label] else []
  | .name _ => []

def toItselfByName (denoted : String → NameMatch) (b : Bond) : List Violation :=
  match b.link.source with
  | .id _ => []
  | .name key =>
    if denoted key = .unique b.index then [.selfLinkByName b.pane.label key] else []

def unclear (denoted : String → NameMatch) (b : Bond) : List Violation :=
  match b.link.source with
  | .id _ => []
  | .name key => match denoted key with
    | .ambiguous is => [.ambiguousName b.pane.label key is]
    | _ => []

end Bond

/-- All that is wrong with a layout. -/
def Layout.offences {α : Type} [Scalar α] (t : Layout α) : List Violation :=
  t.duplicates ++ t.panes.flatMap Pane.zeroSection
    ++ t.nodes.flatMap fewChildren ++ t.nodes.flatMap unevenWeights ++ t.nodes.flatMap badWeights
    ++ t.panes.zipIdx.flatMap (fun x => x.1.blankTable x.2)
    ++ t.bonds.flatMap Bond.blankColumns ++ t.bonds.flatMap Bond.zeroSource
    ++ t.bonds.flatMap Bond.toItself ++ t.bonds.flatMap (Bond.toItselfByName t.denoted)
    ++ t.bonds.flatMap (Bond.unclear t.denoted)

/-! ## Sections -/

theorem SectionId.isValid_iff (id : SectionId) : id.isValid = true ↔ id ≠ ⟨0⟩ := by
  rw [isValid, bne_iff_ne]
  exact not_congr ⟨fun zero => congrArg SectionId.mk zero, congrArg SectionId.raw⟩

namespace Layout

variable {α : Type}

/-- The ids that are met again. -/
def repeats (seen : List SectionId) : List SectionId → List SectionId
  | [] => []
  | id :: ids =>
    if !id.isValid then repeats seen ids
    else if seen.contains id then id :: repeats seen ids
    else repeats (id :: seen) ids

theorem sectionViolations_perm (seen : List SectionId) (ps : List Pane) :
    (sectionViolations seen ps).Perm
      ((repeats seen (ps.filterMap Pane.section?)).map .duplicateSection ++
        ps.flatMap Pane.zeroSection) := by
  induction ps generalizing seen with
  | nil => exact .refl _
  | cons p ps ih =>
    rw [sectionViolations, List.flatMap_cons, Pane.zeroSection]
    cases hp : p.section? with
    | none =>
      rw [List.filterMap_cons_none hp]
      exact ih seen
    | some id =>
      rw [List.filterMap_cons_some hp, repeats]
      dsimp only
      by_cases valid : id.isValid = true
      · have nonzero : ¬ some id = some (⟨0⟩ : SectionId) := fun zero =>
          (id.isValid_iff.1 valid) (Option.some.inj zero)
        rw [if_neg nonzero, valid, List.nil_append]
        simp only [Bool.not_true, Bool.false_eq_true, if_false]
        split
        · exact (ih seen).cons _
        · exact ih (id :: seen)
      · have zero : id = ⟨0⟩ := Decidable.byContradiction fun ne => valid (id.isValid_iff.2 ne)
        rw [if_pos (congrArg some zero), Bool.eq_false_iff.2 valid]
        exact ((ih seen).cons _).trans List.perm_middle.symm

/-- Of the uses of an id all are met again but the first. -/
theorem count_repeats (seen ids : List SectionId) (id : SectionId) :
    (repeats seen ids).count id =
      if id.isValid then ids.count id - if id ∈ seen then 0 else 1 else 0 := by
  induction ids generalizing seen with
  | nil => simp [repeats]
  | cons x ids ih =>
    rw [repeats, List.count_cons]
    by_cases valid : x.isValid = true
    · rw [valid]
      simp only [Bool.not_true, Bool.false_eq_true, if_false]
      by_cases old : x ∈ seen
      · rw [if_pos (List.contains_iff_mem.2 old), List.count_cons, ih]
        by_cases same : x = id
        · subst same
          simp [valid, old]
        · simp [same]
      · rw [if_neg (fun held => old (List.contains_iff_mem.1 held)), ih]
        by_cases same : x = id
        · subst same
          simp [valid, old]
        · simp [same, Ne.symm same]
    · rw [Bool.eq_false_iff.2 valid]
      simp only [Bool.not_false, if_true, ih]
      by_cases same : x = id
      · subst same
        simp [valid]
      · simp [same]

theorem count_flatMap_replicate {xs : List SectionId} (distinct : xs.Nodup) (n : SectionId → Nat)
    (id : SectionId) : (xs.flatMap fun x => List.replicate (n x) x).count id =
      if id ∈ xs then n id else 0 := by
  induction xs with
  | nil => rfl
  | cons x xs ih =>
    obtain ⟨apart, distinct⟩ := List.nodup_cons.1 distinct
    rw [List.flatMap_cons, List.count_append, ih distinct, List.count_replicate]
    by_cases same : x = id
    · subst same
      simp [apart]
    · simp [same, Ne.symm same]

theorem repeats_perm (ids : List SectionId) : (repeats [] ids).Perm
    ((ids.dedup.filter (·.isValid)).flatMap fun id => List.replicate (ids.count id - 1) id) := by
  refine List.perm_iff_count.2 fun id => ?_
  rw [count_repeats, count_flatMap_replicate (ids.nodup_dedup.filter _), if_neg List.not_mem_nil]
  by_cases valid : id.isValid = true
  · by_cases used : id ∈ ids
    · simp [valid, used]
    · simp [valid, used, List.count_eq_zero_of_not_mem used]
  · simp [valid]

theorem sectionViolations_offences (t : Layout α) : (sectionViolations [] t.panes).Perm
    (t.duplicates ++ t.panes.flatMap Pane.zeroSection) := by
  refine (sectionViolations_perm [] t.panes).trans (List.Perm.append_right _ ?_)
  refine ((repeats_perm t.sections).map Violation.duplicateSection).trans (.of_eq ?_)
  rw [List.map_flatMap, duplicates]
  simp only [List.map_replicate]

/-! ## Splits -/

variable [Scalar α]

theorem weightViolations_eq (label : String) (i : Nat) (ws : List α) :
    weightViolations label i ws = ((ws.zipIdx i).filter fun x => !Scalar.isPositive x.1).map
      fun x => .badWeight label x.2 (Scalar.text x.1) := by
  induction ws generalizing i with
  | nil => rfl
  | cons w ws ih =>
    rw [weightViolations, ih, List.zipIdx_cons, List.filter_cons]
    cases Scalar.isPositive w <;> rfl

/-- The violations of a node, those of its children left aside. -/
def nodeViolations (s : Layout α) : List Violation :=
  s.fewChildren ++ (s.unevenWeights ++ s.badWeights)

theorem shapeViolations_eq (axis : Axis) (cs : List (Layout α)) (ws : Option (List α)) :
    shapeViolations (axis.label cs.length) cs.length ws = (split axis cs ws).nodeViolations := by
  cases ws with
  | none => rfl
  | some ws =>
    rw [shapeViolations, weightViolations_eq]
    rfl

mutual

theorem splitViolations_eq : ∀ t : Layout α, splitViolations t = t.nodes.flatMap nodeViolations
  | pane _ => rfl
  | split axis cs ws => by
    rw [splitViolations, nodes, List.flatMap_cons, shapeViolations_eq, splitViolationsOf_eq cs]

theorem splitViolationsOf_eq : ∀ cs : List (Layout α),
    splitViolationsOf cs = (nodesOf cs).flatMap nodeViolations
  | [] => rfl
  | c :: cs => by
    rw [splitViolationsOf, nodesOf, List.flatMap_append, splitViolations_eq c,
      splitViolationsOf_eq cs]

end

/-! ## Panes and links -/

def bondViolations (denoted : String → NameMatch) (b : Bond) : List Violation :=
  b.blankColumns ++ (b.zeroSource ++ (b.toItself ++ (b.toItselfByName denoted ++ b.unclear denoted)))

theorem linkViolations_eq {names : NameIndex} {denoted : String → NameMatch}
    (same : ∀ key, names.resolve key = denoted key) (b : Bond) :
    linkViolations names b.index b.pane b.link = bondViolations denoted b := by
  rw [linkViolations, bondViolations]
  refine congrArg (b.blankColumns ++ ·) ?_
  rw [targetViolations, Bond.zeroSource, Bond.toItself, Bond.toItselfByName, Bond.unclear]
  cases b.link.source with
  | id id =>
    dsimp only
    by_cases zero : id = ⟨0⟩
    · subst zero
      simp [SectionId.isValid]
    · have other : ¬ LinkTarget.id id = .id ⟨0⟩ := fun eq => zero (LinkTarget.id.inj eq)
      rw [(id.isValid_iff).2 zero, if_neg other]
      simp [zero]
  | name key =>
    have other : ¬ LinkTarget.name key = .id ⟨0⟩ := fun eq => LinkTarget.noConfusion eq
    rw [if_neg other]
    dsimp only
    rw [same]
    cases denoted key with
    | unique i => simp
    | ambiguous is => simp
    | missing => simp

theorem paneViolations_eq {names : NameIndex} {denoted : String → NameMatch}
    (same : ∀ key, names.resolve key = denoted key) (i : Nat) (p : Pane) :
    paneViolations names i p =
      p.blankTable i ++ (p.link.map fun l => bondViolations denoted ⟨i, p, l⟩).getD [] := by
  rw [paneViolations, Pane.blankTable]
  congr 1
  · cases p.table? <;> rfl
  · cases p.link with
    | none => rfl
    | some l => exact linkViolations_eq same ⟨i, p, l⟩

theorem paneViolationsFrom_eq (names : NameIndex) (i : Nat) (ps : List Pane) :
    paneViolationsFrom names i ps = (ps.zipIdx i).flatMap fun x => paneViolations names x.2 x.1 := by
  induction ps generalizing i with
  | nil => rfl
  | cons p ps ih => rw [paneViolationsFrom, ih, List.zipIdx_cons, List.flatMap_cons]

theorem flatMap_bonds (f : Bond → List Violation) (xs : List (Pane × Nat)) :
    (xs.flatMap fun x => (x.1.link.map fun l => f ⟨x.2, x.1, l⟩).getD []) =
      (xs.filterMap fun x => x.1.link.map (⟨x.2, x.1, ·⟩)).flatMap f := by
  induction xs with
  | nil => rfl
  | cons x xs ih =>
    rw [List.flatMap_cons, ih]
    cases hl : x.1.link with
    | none =>
      rw [List.filterMap_cons_none (by rw [hl]; rfl)]
      rfl
    | some l =>
      rw [List.filterMap_cons_some (b := ⟨x.2, x.1, l⟩) (by rw [hl]; rfl)]
      rfl

/-! ## The whole report -/

theorem splitViolations_offences (t : Layout α) : (splitViolations t).Perm
    (t.nodes.flatMap fewChildren ++ (t.nodes.flatMap unevenWeights ++ t.nodes.flatMap badWeights)) := by
  rw [splitViolations_eq]
  refine (List.flatMap_append_perm ..).symm.trans (List.Perm.append_left _ ?_)
  exact (List.flatMap_append_perm ..).symm

omit [Scalar α] in
theorem paneViolations_offences (t : Layout α) :
    (paneViolationsFrom (.ofLayout t) 0 t.panes).Perm
      (t.panes.zipIdx.flatMap (fun x => x.1.blankTable x.2) ++
        (t.bonds.flatMap Bond.blankColumns ++ (t.bonds.flatMap Bond.zeroSource ++
          (t.bonds.flatMap Bond.toItself ++ (t.bonds.flatMap (Bond.toItselfByName t.denoted) ++
            t.bonds.flatMap (Bond.unclear t.denoted)))))) := by
  have same (key : String) : (NameIndex.ofLayout t).resolve key = t.denoted key :=
    NameIndex.resolve_ofPanes t.panes key
  have panes := paneViolationsFrom_eq (.ofLayout t) 0 t.panes
  simp only [paneViolations_eq same] at panes
  rw [panes]
  refine (List.flatMap_append_perm ..).symm.trans (List.Perm.append_left _ ?_)
  rw [flatMap_bonds (bondViolations t.denoted)]
  refine (List.flatMap_append_perm ..).symm.trans (List.Perm.append_left _ ?_)
  refine (List.flatMap_append_perm ..).symm.trans (List.Perm.append_left _ ?_)
  refine (List.flatMap_append_perm ..).symm.trans (List.Perm.append_left _ ?_)
  exact (List.flatMap_append_perm ..).symm

theorem violations_offences (t : Layout α) : t.violations.Perm t.offences := by
  have parts := ((sectionViolations_offences t).append (splitViolations_offences t)).append
    (paneViolations_offences t)
  simp only [← List.append_assoc] at parts
  exact parts

/-! ## Well-formed layouts -/

theorem badWeights_eq_nil_iff (axis : Axis) (cs : List (Layout α)) (ws : List α) :
    (split axis cs (some ws)).badWeights = [] ↔ ∀ w ∈ ws, Scalar.isPositive w = true := by
  rw [badWeights, List.map_eq_nil_iff, List.filter_eq_nil_iff]
  constructor
  · intro none w hw
    obtain ⟨i, hi, rfl⟩ := List.getElem_of_mem hw
    simpa using none (ws[i], i) (List.mk_mem_zipIdx_iff_getElem?.2 (List.getElem?_eq_getElem hi))
  · intro all x hx
    simpa using all x.1 (List.fst_mem_of_mem_zipIdx hx)

omit [Scalar α] in
theorem fewChildren_eq_nil_iff (axis : Axis) (cs : List (Layout α)) (ws : Option (List α)) :
    (split axis cs ws).fewChildren = [] ↔ 2 ≤ cs.length := by
  rw [fewChildren]
  split
  · next lt => exact iff_of_false (List.cons_ne_nil _ _) (Nat.not_le_of_lt lt)
  · next ge => exact iff_of_true rfl (Nat.le_of_not_lt ge)

/-- What makes a node well-formed, its children left aside. -/
theorem nodeViolations_eq_nil_iff (s : Layout α) : s.nodeViolations = [] ↔
    (∀ axis cs ws, s = split axis cs ws → 2 ≤ cs.length) ∧
    (∀ axis cs ws, s = split axis cs (some ws) → ws.length = cs.length) ∧
    (∀ axis cs ws, s = split axis cs (some ws) → ∀ w ∈ ws, Scalar.isPositive w = true) := by
  rw [nodeViolations, List.append_eq_nil_iff, List.append_eq_nil_iff]
  cases s with
  | pane p => simp [fewChildren, unevenWeights, badWeights]
  | split axis cs ws =>
    rw [fewChildren_eq_nil_iff]
    cases ws with
    | none => simp [unevenWeights, badWeights]
    | some ws =>
      rw [badWeights_eq_nil_iff]
      simp [unevenWeights]

omit [Scalar α] in
/-- What makes a link well-formed. -/
theorem bondViolations_eq_nil_iff (denoted : String → NameMatch) (b : Bond) :
    bondViolations denoted b = [] ↔
      (∀ c ∈ b.link.columns, Text.isBlank c = false) ∧ b.link.source ≠ .id ⟨0⟩ ∧
      (∀ id, b.link.source = .id id → id ≠ ⟨0⟩ → b.pane.section? ≠ some id) ∧
      (∀ key, b.link.source = .name key → denoted key ≠ .unique b.index) ∧
      ∀ key is, b.link.source = .name key → denoted key ≠ .ambiguous is := by
  rw [bondViolations]
  simp only [List.append_eq_nil_iff]
  refine and_congr ?_ (and_congr ?_ (and_congr ?_ (and_congr ?_ ?_)))
  · rw [Bond.blankColumns, List.map_eq_nil_iff, List.filter_eq_nil_iff]
    simp only [Bool.not_eq_true]
  · rw [Bond.zeroSource]
    split <;> simp [*]
  · rw [Bond.toItself]
    cases b.link.source <;> simp
  · rw [Bond.toItselfByName]
    cases b.link.source <;> simp
  · rw [Bond.unclear]
    cases b.link.source with
    | id id => simp
    | name key =>
      dsimp only
      constructor
      · rintro none key' is same ambiguous
        obtain rfl := LinkTarget.name.inj same
        rw [ambiguous] at none
        cases none
      · intro clear
        split
        · next is ambiguous => exact absurd ambiguous (clear key is rfl)
        · rfl

omit [Scalar α] in
theorem mem_bonds {t : Layout α} {b : Bond} :
    b ∈ t.bonds ↔ t.panes[b.index]? = some b.pane ∧ b.pane.link = some b.link := by
  rw [bonds, List.mem_filterMap]
  constructor
  · rintro ⟨⟨p, i⟩, hx, hb⟩
    obtain ⟨l, hl, rfl⟩ := Option.map_eq_some_iff.1 hb
    exact ⟨List.mk_mem_zipIdx_iff_getElem?.1 hx, hl⟩
  · rintro ⟨hp, hl⟩
    exact ⟨(b.pane, b.index), List.mk_mem_zipIdx_iff_getElem?.2 hp, by rw [hl]; rfl⟩

omit [Scalar α] in
theorem panes_clear_iff (t : Layout α) :
    (∀ i p, t.panes[i]? = some p → paneViolations (.ofLayout t) i p = []) ↔
      (∀ p ∈ t.panes, ∀ name, p.table? = some name → Text.isBlank name = false) ∧
        ∀ b ∈ t.bonds, bondViolations t.denoted b = [] := by
  have same (key : String) : (NameIndex.ofLayout t).resolve key = t.denoted key :=
    NameIndex.resolve_ofPanes t.panes key
  simp only [paneViolations_eq same, List.append_eq_nil_iff]
  constructor
  · intro clear
    refine ⟨fun p hp name named => ?_, fun b hb => ?_⟩
    · obtain ⟨i, hi, rfl⟩ := List.getElem_of_mem hp
      have table := (clear i _ (List.getElem?_eq_getElem hi)).1
      rw [Pane.blankTable, named, Option.any_some] at table
      exact Bool.eq_false_iff.2 fun blank => by rw [blank] at table; cases table
    · obtain ⟨hp, hl⟩ := mem_bonds.1 hb
      have link := (clear b.index b.pane hp).2
      rw [hl] at link
      exact link
  · rintro ⟨tables, links⟩ i p hp
    constructor
    · rw [Pane.blankTable]
      cases named : p.table? with
      | none => rfl
      | some name =>
        rw [Option.any_some, tables p (List.mem_of_getElem? hp) name named]
        rfl
    · cases hl : p.link with
      | none => rfl
      | some l => exact links ⟨i, p, l⟩ (mem_bonds.2 ⟨hp, hl⟩)

theorem validate_eq_nil_iff_wellFormed (t : Layout α) :
    validate (some t) = [] ↔ t.WellFormed := by
  rw [validate_eq_nil_iff, sectionViolations_eq_nil_iff, splitViolations_eq,
    List.flatMap_eq_nil_iff, panes_clear_iff]
  simp only [nodeViolations_eq_nil_iff, bondViolations_eq_nil_iff, SectionId.isValid_iff]
  constructor
  · rintro ⟨⟨distinct, valid⟩, nodes, tables, links⟩
    exact {
      nonzero := fun id hid => (valid id hid).1
      distinct := distinct
      children := fun axis cs ws hs => (nodes _ hs).1 axis cs ws rfl
      counted := fun axis cs ws hs => (nodes _ hs).2.1 axis cs ws rfl
      weights := fun axis cs ws hs => (nodes _ hs).2.2 axis cs ws rfl
      tables := tables
      columns := fun b hb => (links b hb).1
      sources := fun b hb => (links b hb).2.1
      apart := fun b hb id hid =>
        (links b hb).2.2.1 id hid fun zero => (links b hb).2.1 (zero ▸ hid)
      apartByName := fun b hb => (links b hb).2.2.2.1
      clear := fun b hb => (links b hb).2.2.2.2 }
  · intro w
    refine ⟨⟨w.distinct, fun id hid => ⟨w.nonzero id hid, List.not_mem_nil⟩⟩, ?_, w.tables, ?_⟩
    · rintro s hs
      refine ⟨?_, ?_, ?_⟩ <;> rintro axis cs ws rfl
      · exact w.children axis cs ws hs
      · exact w.counted axis cs ws hs
      · exact w.weights axis cs ws hs
    · exact fun b hb => ⟨w.columns b hb, w.sources b hb, fun id hid _ => w.apart b hb id hid,
        w.apartByName b hb, w.clear b hb⟩

/-- The report is empty exactly for a layout that is well-formed, and otherwise it lists all that is
wrong, and each thing once. -/
theorem validate_exact (t : Layout α) :
    (validate (some t) = [] ↔ t.WellFormed) ∧
      (validate (some t)).Perm (t.offences.map (·.issue)) :=
  ⟨t.validate_eq_nil_iff_wellFormed, (violations_offences t).map _⟩

/-- Two panes of section zero, the second linked to section zero. -/
def zeroTwice : Layout Rat :=
  .split .horizontal [.pane (.leaf ⟨0⟩),
    .pane (.existing ⟨0⟩ ⟨none, none, none, some (.syncedWith (.id ⟨0⟩))⟩)] none

/-- Zero is reported as reserved for each use, but not as used twice nor as linked to itself. -/
theorem zero_not_repeated : zeroTwice.sections.count ⟨0⟩ = 2 ∧
    (validate (some zeroTwice)).map (·.rule) = ["L5", "L5", "L5"] := by
  decide +kernel

end Layout
end PaneLayout
