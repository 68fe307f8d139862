import PaneLayout.Layout.Validate
import PaneLayout.Proofs.Native

set_option autoImplicit false

/-!
# The shape of a layout

The native page that a layout lowers to, with its leaves left blank. It depends on the splits and
their weights only, so two layouts that differ in their panes have one shape.
-/

namespace PaneLayout.Layout

variable {α : Type} [Scalar α]

theorem evenShares_length (n : Nat) : (evenShares n : List α).length = n := by
  simp [evenShares]

theorem sharesOf_length (ws : Option (List α)) (n : Nat) : (sharesOf ws n).length = n := by
  unfold sharesOf
  cases ws with
  | none => exact evenShares_length n
  | some ws =>
    simp only
    split
    · next h =>
      split
      · simpa using h
      · exact evenShares_length n
    · exact evenShares_length n

mutual

def shape : Layout α → Option (Native α Unit)
  | pane _ => some (.leaf ())
  | split axis cs ws => (shapeOf cs).bind fun ns => Native.chain axis ns (sharesOf ws cs.length)

def shapeOf : List (Layout α) → Option (List (Native α Unit))
  | [] => some []
  | c :: cs => (shape c).bind fun n => (shapeOf cs).map (n :: ·)

end

theorem shapeOf_length {cs : List (Layout α)} {ns : List (Native α Unit)}
    (h : shapeOf cs = some ns) : ns.length = cs.length := by
  induction cs generalizing ns with
  | nil =>
    obtain rfl := Option.some.inj h
    rfl
  | cons c cs ih =>
    obtain ⟨n, -, rest⟩ := Option.bind_eq_some_iff.1 h
    obtain ⟨ns, hns, rfl⟩ := Option.map_eq_some_iff.1 rest
    rw [List.length_cons, List.length_cons, ih hns]

/-! ## Splits with children -/

mutual

def Branching : Layout α → Prop
  | pane _ => True
  | split _ cs _ => cs ≠ [] ∧ BranchingOf cs

def BranchingOf : List (Layout α) → Prop
  | [] => True
  | c :: cs => Branching c ∧ BranchingOf cs

end

theorem two_le_of_shapeViolations {label : String} {n : Nat} {ws : Option (List α)}
    (h : shapeViolations label n ws = []) : 2 ≤ n := by
  unfold shapeViolations at h
  by_cases few : n < 2
  · simp [few] at h
  · omega

theorem isPositive_of_weightViolations {label : String} {i : Nat} {ws : List α}
    (h : weightViolations label i ws = []) : ∀ w ∈ ws, Scalar.isPositive w = true := by
  induction ws generalizing i with
  | nil => exact fun _ hw => nomatch hw
  | cons w ws ih =>
    rw [weightViolations, List.append_eq_nil_iff] at h
    refine List.forall_mem_cons.2 ⟨?_, ih h.2⟩
    refine Decidable.byContradiction fun bad => ?_
    rw [if_neg bad] at h
    exact List.cons_ne_nil _ _ h.1

/-- Weights that pass are one for each child, all of them positive. -/
theorem weights_of_shapeViolations {label : String} {n : Nat} {ws : List α}
    (h : shapeViolations label n (some ws) = []) :
    ws.length = n ∧ ∀ w ∈ ws, Scalar.isPositive w = true := by
  rw [shapeViolations, List.append_eq_nil_iff, List.append_eq_nil_iff] at h
  refine ⟨?_, isPositive_of_weightViolations h.2.2⟩
  refine Decidable.byContradiction fun other => ?_
  rw [if_neg other] at h
  exact List.cons_ne_nil _ _ h.2.1

theorem ne_nil_of_shapeViolations {label : String} {cs : List (Layout α)} {ws : Option (List α)}
    (h : shapeViolations label cs.length ws = []) : cs ≠ [] := by
  rintro rfl
  simp [shapeViolations] at h

mutual

theorem branching_of_splitViolations : ∀ {t : Layout α}, splitViolations t = [] → t.Branching
  | pane _, _ => trivial
  | split axis cs ws, h => by
    rw [splitViolations, List.append_eq_nil_iff] at h
    exact ⟨ne_nil_of_shapeViolations h.1, branchingOf_of_splitViolationsOf h.2⟩

theorem branchingOf_of_splitViolationsOf :
    ∀ {cs : List (Layout α)}, splitViolationsOf cs = [] → BranchingOf cs
  | [], _ => trivial
  | c :: cs, h => by
    rw [splitViolationsOf, List.append_eq_nil_iff] at h
    exact ⟨branching_of_splitViolations h.1, branchingOf_of_splitViolationsOf h.2⟩

end

end PaneLayout.Layout
