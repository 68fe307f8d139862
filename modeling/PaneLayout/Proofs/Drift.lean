import Mathlib.Data.List.Forall2
import PaneLayout.Proofs.Refolding

set_option autoImplicit false

/-!
# Proportions that are read back

A layout that is read off a page has the areas of the page, but for the weights that were dropped
because they were nearly even. Each time this moves the shares of one split by less than the
tolerance. A share that moves takes the areas below it along, and these are parts of it, so the
error of a leaf grows by at most the tolerance with each split above it, also where a chain that has
been moved already is taken into the next split.
-/

namespace PaneLayout

variable {α ι : Type}

/-! ## Areas as parts of a share -/

namespace Native

/-- How many splits are above each leaf, from left to right. -/
def splitsAbove : Native α ι → List Nat
  | leaf _ => [0]
  | split _ _ a b => (a.splitsAbove ++ b.splitsAbove).map (· + 1)

theorem areasWithin_mul (s share : Rat) (n : Native Rat ι) :
    n.areasWithin (s * share) = (n.areasWithin share).map (s * ·) := by
  induction n generalizing share with
  | leaf id => rfl
  | split axis ratio a b iha ihb =>
    rw [areasWithin_split, areasWithin_split, List.map_append, ← iha, ← ihb, mul_assoc, mul_assoc]

theorem areasWithin_eq (share : Rat) (n : Native Rat ι) :
    n.areasWithin share = n.areas.map (share * ·) := by
  rw [areas, ← areasWithin_mul]
  exact congrArg n.areasWithin (mul_one share).symm

end Native

namespace Layout

mutual

theorem areasWithin_mul (s share : Rat) : ∀ t : Layout Rat,
    t.areasWithin (s * share) = (t.areasWithin share).map (s * ·)
  | pane _ => rfl
  | split _ cs ws => areasOf_mul s share cs (sharesOf ws cs.length)

theorem areasOf_mul (s share : Rat) : ∀ (cs : List (Layout Rat)) (us : List Rat),
    areasOf (s * share) cs us = (areasOf share cs us).map (s * ·)
  | [], us => by simp [areasOf]
  | c :: cs, [] => rfl
  | c :: cs, u :: us => by
    rw [areasOf, areasOf, List.map_append, ← areasWithin_mul, ← areasOf_mul, mul_assoc]

end

theorem areasWithin_eq (share : Rat) (t : Layout Rat) :
    t.areasWithin share = t.paneAreas.map (share * ·) := by
  rw [paneAreas, ← areasWithin_mul]
  exact congrArg t.areasWithin (mul_one share).symm

theorem Whole.part_of_one {us : List Rat} (h : Whole us) : ∀ u ∈ us, 0 ≤ u ∧ u ≤ 1 := by
  intro u hu
  refine ⟨(h.1 u hu).le, ?_⟩
  rw [← h.2]
  exact List.single_le_sum (fun v hv => (h.1 v hv).le) u hu

mutual

theorem areasWithin_part : ∀ {t : Layout Rat}, splitViolations t = [] → ∀ {share : Rat},
    0 ≤ share → ∀ a ∈ t.areasWithin share, 0 ≤ a ∧ a ≤ share
  | pane _, _, share, pos => by
    rw [areasWithin, List.forall_mem_singleton]
    exact ⟨pos, le_refl share⟩
  | split axis cs ws, valid, share, pos => by
    rw [splitViolations, List.append_eq_nil_iff] at valid
    rw [areasWithin]
    exact areasOf_part valid.2 pos (whole_sharesOf valid.1).part_of_one

theorem areasOf_part : ∀ {cs : List (Layout Rat)}, splitViolationsOf cs = [] → ∀ {share : Rat},
    0 ≤ share → ∀ {us : List Rat}, (∀ u ∈ us, 0 ≤ u ∧ u ≤ 1) →
      ∀ a ∈ areasOf share cs us, 0 ≤ a ∧ a ≤ share
  | [], _, share, _, us, _ => by simp [areasOf]
  | c :: cs, _, share, _, [], _ => fun a ha => nomatch ha
  | c :: cs, valid, share, pos, u :: us, parts => by
    rw [splitViolationsOf, List.append_eq_nil_iff] at valid
    obtain ⟨⟨low, high⟩, rest⟩ := List.forall_mem_cons.1 parts
    rw [areasOf, List.forall_mem_append]
    refine ⟨fun a ha => ?_, areasOf_part valid.2 pos rest⟩
    obtain ⟨nonneg, le⟩ := areasWithin_part valid.1 (mul_nonneg pos low) a ha
    exact ⟨nonneg, le.trans (mul_le_of_le_one_right pos high)⟩

end

/-- Shares that make up a whole are kept as they are. -/
theorem sharesOf_of_whole {us : List Rat} (whole : Whole us) :
    sharesOf (some us) us.length = us := by
  obtain ⟨u, us, rfl⟩ : ∃ u vs, us = u :: vs := by
    cases us with
    | nil => cases whole.2
    | cons u vs => exact ⟨u, vs, rfl⟩
  have top : 0 < Scalar.top (u :: us) := Scalar.top_pos (whole.1 u List.mem_cons_self)
  have total : ((u :: us).map (· / Scalar.top (u :: us))).sum = 1 / Scalar.top (u :: us) := by
    simp only [div_eq_mul_inv, List.sum_map_mul_right, List.map_id', whole.2]
  rw [sharesOf, if_pos rfl]
  dsimp only
  rw [if_pos ((Scalar.isPositive_iff _).2 top), Scalar.sum_eq, total, List.map_map]
  have same : ∀ v : Rat, v / Scalar.top (u :: us) / (1 / Scalar.top (u :: us)) = v := by
    intro v
    field_simp
  simp only [Function.comp_def, same, List.map_id']

end Layout

/-! ## Errors -/

/-- The two lists are in step and nowhere further apart than `δ`. -/
abbrev Near (δ : Rat) : List Rat → List Rat → Prop := List.Forall₂ fun x y => |x - y| ≤ δ

theorem Near.refl {δ : Rat} (nonneg : 0 ≤ δ) (xs : List Rat) : Near δ xs xs :=
  List.forall₂_same.2 fun x _ => by rwa [sub_self, abs_zero]

/-- In each place `xs` is off from `ys` by no more than `δ` as often as `ks` says. -/
inductive OffBy (δ : Rat) : List Nat → List Rat → List Rat → Prop
  | nil : OffBy δ [] [] []
  | cons {k : Nat} {ks : List Nat} {x y : Rat} {xs ys : List Rat} :
      |x - y| ≤ δ * k → OffBy δ ks xs ys → OffBy δ (k :: ks) (x :: xs) (y :: ys)

namespace OffBy

variable {δ : Rat} {ks ks' : List Nat} {xs xs' ys ys' : List Rat}

theorem append (h : OffBy δ ks xs ys) (h' : OffBy δ ks' xs' ys') :
    OffBy δ (ks ++ ks') (xs ++ xs') (ys ++ ys') := by
  induction h with
  | nil => exact h'
  | cons off _ ih => exact .cons off ih

/-- A part of the whole is off by no more than the whole. -/
theorem scale {s : Rat} (nonneg : 0 ≤ s) (part : s ≤ 1) (h : OffBy δ ks xs ys) :
    OffBy δ ks (xs.map (s * ·)) (ys.map (s * ·)) := by
  induction h with
  | nil => exact .nil
  | @cons k ks x y xs ys off _ ih =>
    refine .cons ?_ ih
    calc |s * x - s * y| = s * |x - y| := by rw [← mul_sub, abs_mul, abs_of_nonneg nonneg]
      _ ≤ |x - y| := mul_le_of_le_one_left (abs_nonneg _) part
      _ ≤ δ * k := off

theorem shift {zs : List Rat} (moved : Near δ zs xs) (h : OffBy δ ks xs ys) :
    OffBy δ (ks.map (· + 1)) zs ys := by
  induction h generalizing zs with
  | nil =>
    cases moved
    exact .nil
  | @cons k ks x y xs ys off _ ih =>
    obtain ⟨z, zs, near, rest, rfl⟩ := List.forall₂_cons_right_iff.1 moved
    refine .cons ?_ (ih rest)
    calc |z - y| ≤ |z - x| + |x - y| := abs_sub_le z x y
      _ ≤ δ + δ * k := add_le_add near off
      _ = δ * (k + 1 : Nat) := by push_cast; ring

theorem length_eq (h : OffBy δ ks xs ys) : xs.length = ys.length := by
  induction h with
  | nil => rfl
  | cons _ _ ih => rw [List.length_cons, List.length_cons, ih]

theorem getElem? (h : OffBy δ ks xs ys) {i : Nat} (bound : i < ys.length) : ∃ k x y,
    ks[i]? = some k ∧ xs[i]? = some x ∧ ys[i]? = some y ∧ |x - y| ≤ δ * k := by
  induction h generalizing i with
  | nil => cases bound
  | @cons k ks x y xs ys off _ ih =>
    cases i with
    | zero => exact ⟨k, x, y, rfl, rfl, rfl, off⟩
    | succ i => exact ih (Nat.lt_of_succ_lt_succ bound)

theorem eq_of_zero (h : OffBy 0 ks xs ys) : xs = ys := by
  induction h with
  | nil => rfl
  | @cons k ks x y xs ys off _ ih =>
    rw [zero_mul] at off
    rw [ih, sub_eq_zero.1 (abs_nonpos_iff.1 off)]

end OffBy

namespace Decompile

/-! ## Weights that are dropped -/

section
variable [Scalar α]

/-- The lists of weights that are dropped while a page is read, each as it was at its split. -/
def dropped (flatten : Bool) (leaf : SectionId → Pane) : Native α SectionId → List (List α)
  | .leaf _ => []
  | .split axis ratio a b =>
    let us := weightsAt flatten axis ratio (layoutWith flatten leaf b)
    (if (compressWeights us).isNone then [us] else []) ++
      (dropped flatten leaf a ++ dropped flatten leaf b)

theorem compressWeights_of_mem_dropped {flatten : Bool} {leaf : SectionId → Pane}
    {n : Native α SectionId} {us : List α} (h : us ∈ dropped flatten leaf n) :
    compressWeights us = none := by
  induction n with
  | leaf id => cases h
  | split axis ratio a b iha ihb =>
    rw [dropped, List.mem_append, List.mem_append] at h
    rcases h with here | inFirst | inSecond
    · split at here
      · next none =>
        rw [List.mem_singleton.1 here]
        exact Option.isNone_iff_eq_none.1 none
      · cases here
    · exact iha inFirst
    · exact ihb inSecond

end

theorem abs_lt_of_compressWeights {us : List Rat} (h : compressWeights us = none) :
    ∀ u ∈ us, |u - 1 / us.length| < 1 / 10 ^ 9 := by
  intro u hu
  rw [compressWeights] at h
  split at h
  · next all =>
    have close := of_decide_eq_true (List.all_eq_true.1 all u hu)
    have some : max us.length 1 = us.length := max_eq_left (List.length_pos_of_mem hu)
    rw [some] at close
    have tolerance : (Scalar.tolerance : Rat) = 1 / 10 ^ 9 := by
      change (1e-9 : Rat) = 1 / 10 ^ 9
      norm_num
    rw [← tolerance]
    refine lt_of_eq_of_lt ?_ close
    change |u - 1 / us.length| = if u - 1 / us.length < 0 then _ else _
    split
    · next neg => exact abs_of_neg neg
    · next nonneg => exact abs_of_nonneg (not_lt.1 nonneg)
  · cases h

/-! ## Areas of a joined split -/

/-- Shares that move take the areas below them along. -/
theorem near_areasOf {δ : Rat} {us vs : List Rat} (near : Near δ us vs) {cs : List (Layout Rat)}
    (valid : Layout.splitViolationsOf cs = []) :
    Near δ (Layout.areasOf 1 cs us) (Layout.areasOf 1 cs vs) := by
  induction near generalizing cs with
  | nil => cases cs <;> exact .nil
  | @cons u v us vs close _ ih =>
    cases cs with
    | nil => exact .nil
    | cons c cs =>
      rw [Layout.splitViolationsOf, List.append_eq_nil_iff] at valid
      rw [Layout.areasOf, Layout.areasOf, one_mul, one_mul, Layout.areasWithin_eq u,
        Layout.areasWithin_eq v]
      refine List.rel_append ?_ (ih valid.2)
      rw [List.forall₂_map_left_iff, List.forall₂_map_right_iff, List.forall₂_same]
      intro a ha
      obtain ⟨nonneg, part⟩ := Layout.areasWithin_part valid.1 zero_le_one a ha
      calc |u * a - v * a| = |u - v| * a := by rw [← sub_mul, abs_mul, abs_of_nonneg nonneg]
        _ ≤ |u - v| := mul_le_of_le_one_right (abs_nonneg _) part
        _ ≤ δ := close

theorem near_shares {δ : Rat} (nonneg : 0 ≤ δ) {us : List Rat} (whole : Layout.Whole us)
    (even : compressWeights us = none → ∀ u ∈ us, |u - 1 / us.length| ≤ δ) :
    Near δ (Layout.sharesOf (compressWeights us) us.length) us := by
  cases kept : compressWeights us with
  | some vs =>
    obtain rfl := compressWeights_eq_some kept
    rw [Layout.sharesOf_of_whole whole]
    exact .refl nonneg vs
  | none =>
    change Near δ (List.replicate us.length (1 / (us.length : Rat))) us
    rw [← List.map_const', Near, List.forall₂_map_left_iff, List.forall₂_same]
    intro u hu
    rw [abs_sub_comm]
    exact even kept u hu

theorem near_join {δ : Rat} (nonneg : 0 ≤ δ) (flatten : Bool) (axis : Axis) {ratio : Rat}
    (low : 0 < ratio) (high : ratio < 1) {first second : Layout Rat}
    (ha : Layout.splitViolations first = []) (hb : Layout.splitViolations second = [])
    (even : let us := weightsAt flatten axis ratio second
      compressWeights us = none → ∀ u ∈ us, |u - 1 / us.length| ≤ δ) :
    Near δ (join flatten axis ratio first second).paneAreas
      (first.areasWithin ratio ++ second.areasWithin (1 - ratio)) := by
  have h := apportions flatten axis low high ha hb
  rw [join_eq, ← h.areas, Layout.paneAreas, Layout.areasWithin, ← h.length]
  exact near_areasOf (near_shares nonneg h.whole even) h.valid

/-! ## Areas of a page -/

/-- Every split adds what its own weights are off by, and no more. -/
theorem offBy_layoutWith {δ : Rat} (nonneg : 0 ≤ δ) (flatten : Bool) (leaf : SectionId → Pane)
    {n : Native Rat SectionId} (proper : n.Proper)
    (even : ∀ us ∈ dropped flatten leaf n, ∀ u ∈ us, |u - 1 / us.length| ≤ δ) :
    OffBy δ n.splitsAbove (layoutWith flatten leaf n).paneAreas n.areas := by
  induction n with
  | leaf id =>
    refine .cons ?_ .nil
    simp
  | split axis ratio a b iha ihb =>
    obtain ⟨⟨low, high⟩, ha, hb⟩ := Native.proper_split.1 proper
    rw [dropped, List.forall_mem_append, List.forall_mem_append] at even
    obtain ⟨here, inFirst, inSecond⟩ := even
    have moved := near_join nonneg flatten axis low high
      (splitViolations_layoutWith flatten leaf ha) (splitViolations_layoutWith flatten leaf hb)
      fun none => here _ <| by
        rw [none]
        exact List.mem_singleton_self _
    refine .shift moved ?_
    change OffBy δ _ _ (a.areasWithin (1 * ratio) ++ b.areasWithin (1 * (1 - ratio)))
    rw [one_mul, one_mul, Native.areasWithin_eq ratio, Native.areasWithin_eq (1 - ratio),
      Layout.areasWithin_eq ratio, Layout.areasWithin_eq (1 - ratio)]
    exact ((iha ha inFirst).scale low.le high.le).append
      ((ihb hb inSecond).scale (sub_nonneg.2 high.le) (sub_le_self 1 low.le))

end Decompile

/-- Leaf by leaf, a page that is read back has the areas of the page, up to the tolerance for each
split above the leaf. They are the same areas if what was dropped was even. -/
theorem leafAreas_decompile {n : Native Rat SectionId} (proper : n.Proper) (ws : WidgetMap)
    (s : Schema) (o : DecompileOptions) :
    (decompile n ws s o).leafAreas.length = n.leaves.length ∧
    (∀ i < n.leaves.length, ∃ k x y, n.splitsAbove[i]? = some k ∧
      (decompile n ws s o).leafAreas[i]? = some x ∧ n.areas[i]? = some y ∧
      |x - y| ≤ 1 / 10 ^ 9 * k) ∧
    ((∀ us ∈ Decompile.dropped o.flattenChains (fun id => (Decompile.readLeaf ws s o id).pane) n,
      ∀ u ∈ us, u = 1 / us.length) → (decompile n ws s o).leafAreas = n.areas) := by
  have tolerated : OffBy (1 / 10 ^ 9) n.splitsAbove (decompile n ws s o).leafAreas n.areas :=
    Decompile.offBy_layoutWith (by positivity) o.flattenChains _ proper fun us hus u hu =>
      (Decompile.abs_lt_of_compressWeights (Decompile.compressWeights_of_mem_dropped hus) u hu).le
  have length : n.areas.length = n.leaves.length := Native.areasWithin_length _ n
  refine ⟨tolerated.length_eq.trans length, fun i bound => ?_, fun even => ?_⟩
  · rw [← length] at bound
    exact tolerated.getElem? bound
  · have exactly : OffBy 0 n.splitsAbove (decompile n ws s o).leafAreas n.areas :=
      Decompile.offBy_layoutWith le_rfl o.flattenChains _ proper fun us hus u hu => by
        rw [even us hus u hu, sub_self, abs_zero]
    exact exactly.eq_of_zero

/-- A third of the page, and the rest in halves up to `ε`. -/
def Native.thirds (ε : Rat) : Native Rat SectionId :=
  .split .horizontal (1 / 3) (.leaf ⟨1⟩)
    (.split .horizontal (1 / 2 + ε) (.leaf ⟨2⟩) (.leaf ⟨3⟩))

theorem leafAreas_decompile_thirds :
    let o : DecompileOptions := ⟨true, true, false⟩
    let n := Native.thirds (1 / 10000000000)
    let even := Native.thirds 0
    n.Proper ∧ (decompile n ∅ .empty o).leafAreas.length = n.leaves.length ∧
    (∀ i < n.leaves.length, ∃ k x y, n.splitsAbove[i]? = some k ∧
      (decompile n ∅ .empty o).leafAreas[i]? = some x ∧ n.areas[i]? = some y ∧
      |x - y| ≤ 1 / 10 ^ 9 * k) ∧
    even.Proper ∧ (decompile even ∅ .empty o).leafAreas = even.areas := by
  intro o n even
  have proper : n.Proper := by
    unfold Native.Proper
    decide +kernel
  have proper' : even.Proper := by
    unfold Native.Proper
    decide +kernel
  have dropped : ∀ us ∈ Decompile.dropped true
      (fun id => (Decompile.readLeaf ∅ .empty o id).pane) even, ∀ u ∈ us, u = 1 / us.length := by
    decide +kernel
  obtain ⟨length, tolerated, -⟩ := leafAreas_decompile proper ∅ .empty o
  exact ⟨proper, length, tolerated, proper', (leafAreas_decompile proper' ∅ .empty o).2.2 dropped⟩

/-- The inner halves are taken for even ones, and with that so is the whole split. -/
example : (decompile (Native.thirds (1 / 10000000000)) ∅ .empty ⟨true, true, false⟩).leafAreas =
    [1 / 3, 1 / 3, 1 / 3] := by decide +kernel

end PaneLayout
