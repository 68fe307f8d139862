import PaneLayout.Decompile
import PaneLayout.Proofs.Proportions

set_option autoImplicit false

/-!
# Splits folded up again

The layout that is read off a page lowers to the same page up to its ratios: weights that are nearly
even are dropped, and a chain that is taken apart into one split comes out as a chain again. Where
the ratios of the page are proper the weights of the layout are valid, and before any are dropped
they share out every split as the page does.
-/

namespace PaneLayout

variable {α ι : Type}

namespace Native

/-- The page without its ratios. -/
def skeleton : Native α ι → Native Unit ι
  | leaf id => leaf id
  | split axis _ a b => split axis () a.skeleton b.skeleton

theorem shape_skeleton (n : Native α ι) : n.skeleton.shape = n.shape.skeleton := by
  induction n with
  | leaf id => rfl
  | split axis ratio a b iha ihb => rw [skeleton, shape, iha, ihb, shape, skeleton]

theorem leaves_skeleton (n : Native α ι) : n.skeleton.leaves = n.leaves := by
  induction n with
  | leaf id => rfl
  | split axis ratio a b iha ihb => rw [skeleton, leaves, iha, ihb, leaves]

theorem skeleton_eq_of_shape {a b : Native α ι} (shape : a.shape.skeleton = b.shape.skeleton)
    (leaves : a.leaves = b.leaves) : a.skeleton = b.skeleton := by
  apply eq_of_shape_of_leaves
  · rw [shape_skeleton, shape_skeleton, shape]
  · rw [leaves_skeleton, leaves_skeleton, leaves]

/-- A right-leaning chain without ratios. -/
def backbone (axis : Axis) : List (Native Unit ι) → Option (Native Unit ι)
  | [] => none
  | n :: ns => match backbone axis ns with
    | none => some n
    | some tail => some (split axis () n tail)

theorem backbone_cons {axis : Axis} {ns : List (Native Unit ι)} {tail : Native Unit ι}
    (h : backbone axis ns = some tail) (n : Native Unit ι) :
    backbone axis (n :: ns) = some (split axis () n tail) := by
  rw [backbone, h]

theorem backbone_chainWeighted [Scalar α] {axis : Axis} {cs : List (Native α ι × α)}
    {n : Native α ι} {w : α} (h : chainWeighted axis cs = some (n, w)) :
    backbone axis (cs.map fun c => c.1.skeleton) = some n.skeleton := by
  induction cs generalizing n w with
  | nil => cases h
  | cons c cs ih =>
    rcases chainWeighted_cons_cases h with ⟨rfl, rfl, -⟩ | ⟨tail, under, ht, rfl, -⟩
    · rfl
    · exact backbone_cons (ih ht) c.1.skeleton

theorem backbone_chain [Scalar α] {axis : Axis} {ns : List (Native α ι)} {ws : List α}
    {n : Native α ι} (len : ws.length = ns.length) (h : chain axis ns ws = some n) :
    backbone axis (ns.map skeleton) = some n.skeleton := by
  obtain ⟨⟨m, w⟩, hm, rfl⟩ := Option.map_eq_some_iff.1 h
  have firsts : (ns.zip ws).map Prod.fst = ns := List.map_fst_zip (Nat.le_of_eq len.symm)
  rw [← backbone_chainWeighted hm]
  conv => lhs; rw [← firsts, List.map_map]
  rfl

end Native

/-! ## The page of a layout without its ratios -/

namespace Layout

mutual

def skeleton : Layout α → Option (Native Unit Unit)
  | pane _ => some (.leaf ())
  | split axis cs _ => (skeletonOf cs).bind (Native.backbone axis)

def skeletonOf : List (Layout α) → Option (List (Native Unit Unit))
  | [] => some []
  | c :: cs => (skeleton c).bind fun n => (skeletonOf cs).map (n :: ·)

end

variable [Scalar α]

mutual

theorem skeleton_of_shape : ∀ {t : Layout α} {n : Native α Unit},
    t.shape = some n → t.skeleton = some n.skeleton
  | pane _, n, h => by
    obtain rfl := Option.some.inj h
    rfl
  | split axis cs ws, n, h => by
    obtain ⟨ns, hns, chain⟩ := Option.bind_eq_some_iff.1 h
    have len : (sharesOf ws cs.length).length = ns.length := by
      rw [sharesOf_length, shapeOf_length hns]
    rw [skeleton, skeletonOf_of_shapeOf hns]
    exact Native.backbone_chain len chain

theorem skeletonOf_of_shapeOf : ∀ {cs : List (Layout α)} {ns : List (Native α Unit)},
    shapeOf cs = some ns → skeletonOf cs = some (ns.map Native.skeleton)
  | [], ns, h => by
    obtain rfl := Option.some.inj h
    rfl
  | c :: cs, ns, h => by
    obtain ⟨n, hn, rest⟩ := Option.bind_eq_some_iff.1 h
    obtain ⟨ns, hns, rfl⟩ := Option.map_eq_some_iff.1 rest
    rw [skeletonOf, skeleton_of_shape hn, skeletonOf_of_shapeOf hns]
    rfl

end

theorem areasOf_map_mul (share s : Rat) (cs : List (Layout Rat)) (us : List Rat) :
    areasOf share cs (us.map (· * s)) = areasOf (share * s) cs us := by
  induction cs generalizing us with
  | nil => simp [areasOf]
  | cons c cs ih =>
    cases us with
    | nil => rfl
    | cons u us => rw [List.map_cons, areasOf, areasOf, ih, mul_right_comm, mul_assoc]

end Layout

namespace Decompile

section
variable [Scalar α]

/-- The children of a split whose halves became `first` and `second`. -/
def childrenAt (flatten : Bool) (axis : Axis) (first second : Layout α) : List (Layout α) :=
  match second with
  | .split axis' cs _ => if flatten && axis = axis' then first :: cs else [first, second]
  | .pane _ => [first, second]

/-- Their weights, before it is seen whether these are even. -/
def weightsAt (flatten : Bool) (axis : Axis) (ratio : α) (second : Layout α) : List α :=
  match second with
  | .split axis' _ _ =>
    if flatten && axis = axis' then ratio :: second.shares.map fun w => w * (Scalar.one - ratio)
    else [ratio, Scalar.one - ratio]
  | .pane _ => [ratio, Scalar.one - ratio]

theorem join_eq (flatten : Bool) (axis : Axis) (ratio : α) (first second : Layout α) :
    join flatten axis ratio first second = .split axis (childrenAt flatten axis first second)
      (compressWeights (weightsAt flatten axis ratio second)) := by
  cases second with
  | pane p => rfl
  | split axis' cs ws =>
    unfold join joined childrenAt weightsAt
    dsimp only
    split <;> rfl

theorem skeleton_join (flatten : Bool) (axis : Axis) (ratio : α) {first second : Layout α}
    {a b : Native Unit Unit} (ha : first.skeleton = some a) (hb : second.skeleton = some b) :
    (join flatten axis ratio first second).skeleton = some (.split axis () a b) := by
  have plain (ws : Option (List α)) :
      (Layout.split axis [first, second] ws).skeleton = some (.split axis () a b) := by
    simp only [Layout.skeleton, Layout.skeletonOf, ha, hb, Option.bind_some, Option.map_some]
    rfl
  cases second with
  | pane p => exact plain _
  | split axis' cs ws =>
    rw [join]
    split
    · next same =>
      simp only [Bool.and_eq_true, decide_eq_true_eq] at same
      obtain ⟨-, rfl⟩ := same
      obtain ⟨ns, hns, tail⟩ := Option.bind_eq_some_iff.1 hb
      rw [joined, Layout.skeleton, Layout.skeletonOf, ha, hns]
      exact Native.backbone_cons tail a
    · exact plain _

theorem skeleton_layoutWith (flatten : Bool) (leaf : SectionId → Pane) (n : Native α SectionId) :
    (layoutWith flatten leaf n).skeleton = some n.shape.skeleton := by
  induction n with
  | leaf id => rfl
  | split axis ratio a b iha ihb => exact skeleton_join flatten axis ratio iha ihb

theorem compressWeights_eq_some {ws ws' : List α} (h : compressWeights ws = some ws') :
    ws' = ws := by
  rw [compressWeights] at h
  split at h
  · cases h
  · exact (Option.some.inj h).symm

end

/-! ## Valid weights -/

theorem weightViolations_eq_nil (label : String) (i : Nat) {ws : List Rat}
    (pos : ∀ w ∈ ws, 0 < w) : Layout.weightViolations label i ws = [] := by
  induction ws generalizing i with
  | nil => rfl
  | cons w ws ih =>
    obtain ⟨hw, hws⟩ := List.forall_mem_cons.1 pos
    rw [Layout.weightViolations, if_pos ((Scalar.isPositive_iff w).2 hw), ih (i + 1) hws]
    rfl

theorem shapeViolations_compressWeights (label : String) {n : Nat} {ws : List Rat} (two : 2 ≤ n)
    (len : ws.length = n) (pos : ∀ w ∈ ws, 0 < w) :
    Layout.shapeViolations label n (compressWeights ws) = [] := by
  have enough : ¬ n < 2 := Nat.not_lt.2 two
  unfold Layout.shapeViolations
  rw [if_neg enough]
  cases h : compressWeights ws with
  | none => rfl
  | some ws' =>
    obtain rfl := compressWeights_eq_some h
    dsimp only
    rw [if_pos len, weightViolations_eq_nil label 0 pos]
    rfl

/-- The weights `us` share out the children `cs` as the halves of a split are shared out. -/
structure Apportions (ratio : Rat) (first second : Layout Rat) (cs : List (Layout Rat))
    (us : List Rat) : Prop where
  two : 2 ≤ cs.length
  valid : Layout.splitViolationsOf cs = []
  length : us.length = cs.length
  whole : Layout.Whole us
  areas : Layout.areasOf 1 cs us = first.areasWithin ratio ++ second.areasWithin (1 - ratio)

theorem apportions (flatten : Bool) (axis : Axis) {ratio : Rat} (low : 0 < ratio)
    (high : ratio < 1) {first second : Layout Rat} (ha : Layout.splitViolations first = [])
    (hb : Layout.splitViolations second = []) : Apportions ratio first second
      (childrenAt flatten axis first second) (weightsAt flatten axis ratio second) := by
  have rest : 0 < 1 - ratio := sub_pos.2 high
  have halves : Apportions ratio first second [first, second] [ratio, 1 - ratio] := {
    two := Nat.le_refl 2
    valid := by rw [Layout.splitViolationsOf, Layout.splitViolationsOf, ha, hb]; rfl
    length := rfl
    whole := ⟨List.forall_mem_cons.2 ⟨low, List.forall_mem_singleton.2 rest⟩, by simp⟩
    areas := by simp [Layout.areasOf] }
  cases second with
  | pane p => exact halves
  | split axis' cs ws =>
    unfold childrenAt weightsAt
    dsimp only
    split
    · rw [Layout.splitViolations, List.append_eq_nil_iff] at hb
      have two := Layout.two_le_of_shapeViolations hb.1
      obtain ⟨pos, total⟩ := Layout.whole_sharesOf hb.1
      change Apportions ratio first _ _
        (ratio :: (Layout.sharesOf ws cs.length).map (· * (1 - ratio)))
      constructor
      case two =>
        rw [List.length_cons]
        omega
      case valid =>
        rw [Layout.splitViolationsOf, ha, hb.2]
        rfl
      case length =>
        rw [List.length_cons, List.length_cons, List.length_map, Layout.sharesOf_length]
      case whole =>
        refine ⟨List.forall_mem_cons.2 ⟨low, List.forall_mem_map.2 fun u hu => ?_⟩, ?_⟩
        · exact mul_pos (pos u hu) rest
        · rw [List.sum_cons, List.sum_map_mul_right, List.map_id', total]
          ring
      case areas =>
        rw [Layout.areasOf, Layout.areasOf_map_mul, one_mul, one_mul, Layout.areasWithin]
    · exact halves

theorem splitViolations_join (flatten : Bool) (axis : Axis) {ratio : Rat} (low : 0 < ratio)
    (high : ratio < 1) {first second : Layout Rat} (ha : Layout.splitViolations first = [])
    (hb : Layout.splitViolations second = []) :
    Layout.splitViolations (join flatten axis ratio first second) = [] := by
  have h := apportions flatten axis low high ha hb
  rw [join_eq, Layout.splitViolations, h.valid,
    shapeViolations_compressWeights _ h.two h.length h.whole.1]
  rfl

theorem splitViolations_layoutWith (flatten : Bool) (leaf : SectionId → Pane)
    {n : Native Rat SectionId} (proper : n.Proper) :
    Layout.splitViolations (layoutWith flatten leaf n) = [] := by
  induction n with
  | leaf id => rfl
  | split axis ratio a b iha ihb =>
    obtain ⟨⟨low, high⟩, ha, hb⟩ := Native.proper_split.1 proper
    exact splitViolations_join flatten axis low high (iha ha) (ihb hb)

end Decompile
end PaneLayout
