import Mathlib.Algebra.BigOperators.Ring.List
import Mathlib.Algebra.Order.BigOperators.Group.List
import Mathlib.Algebra.Order.Field.Basic
import Mathlib.Algebra.Order.Field.Rat
import Mathlib.Tactic.FieldSimp
import Mathlib.Tactic.Linarith
import Mathlib.Tactic.Ring
import PaneLayout.Proofs.Plan
import PaneLayout.Proofs.Validity
import PaneLayout.Scalar.Rational

set_option autoImplicit false

/-!
# The proportions of a page

On rationals a page gives every pane exactly the area that the layout asks for. The layout
multiplies the shares along a path. The page has a chain of splits for each split of the layout, and
along a chain the ratios telescope: what is left after some children is the sum of the shares that
follow over the sum of all.
-/

namespace PaneLayout

/-! ## Shares of a whole -/

namespace Scalar

theorem isPositive_iff (x : Rat) : isPositive x ↔ 0 < x := by
  change (true && decide ((0 : Rat) < x)) = true ↔ 0 < x
  rw [Bool.true_and, decide_eq_true_iff]

theorem sum_eq (xs : List Rat) : sum xs = xs.sum := List.sum_eq_foldl.symm

/-- The greatest so far only grows, so it stays positive from the first positive number on. -/
theorem top_pos {x : Rat} {xs : List Rat} (hx : 0 < x) : 0 < top (x :: xs) := by
  have grows : ∀ (ys : List Rat) (m : Rat), 0 < m →
      0 < ys.foldl (fun m y => if lt m y then y else m) m := by
    intro ys
    induction ys with
    | nil => exact fun _ hm => hm
    | cons y ys ih =>
      intro m hm
      rw [List.foldl_cons]
      apply ih
      split
      · next less => exact hm.trans (of_decide_eq_true less)
      · exact hm
  have first : lt (zero : Rat) x = true := decide_eq_true hx
  rw [top, List.foldl_cons, if_pos first]
  exact grows xs x hx

end Scalar

namespace Layout

/-- Shares of a split: positive parts of a whole. -/
def Whole (ws : List Rat) : Prop := (∀ w ∈ ws, 0 < w) ∧ ws.sum = 1

theorem whole_normalised {ws : List Rat} (pos : ∀ w ∈ ws, 0 < w) (some : ws ≠ []) :
    Whole (ws.map (· / ws.sum)) := by
  have total : 0 < ws.sum := ws.sum_pos pos some
  refine ⟨List.forall_mem_map.2 fun w hw => div_pos (pos w hw) total, ?_⟩
  simp only [div_eq_mul_inv, List.sum_map_mul_right, List.map_id']
  exact mul_inv_cancel₀ total.ne'

theorem whole_evenShares {n : Nat} (some : 0 < n) : Whole (evenShares n) := by
  have total : (0 : Rat) < n := Nat.cast_pos.2 some
  change Whole (List.replicate n (1 / (n : Rat)))
  refine ⟨fun w hw => ?_, ?_⟩
  · rw [List.eq_of_mem_replicate hw]
    exact one_div_pos.2 total
  · rw [List.sum_replicate, nsmul_eq_mul, mul_one_div_cancel total.ne']

/-- Scaling by the greatest weight first changes nothing on rationals but is never refused. -/
theorem whole_sharesOf {label : String} {n : Nat} {ws : Option (List Rat)}
    (valid : shapeViolations label n ws = []) : Whole (sharesOf ws n) := by
  have two := two_le_of_shapeViolations valid
  cases ws with
  | none => exact whole_evenShares (by omega)
  | some ws =>
    obtain ⟨len, positive⟩ := weights_of_shapeViolations valid
    have pos : ∀ w ∈ ws, 0 < w := fun w hw => (Scalar.isPositive_iff w).1 (positive w hw)
    obtain ⟨w, ws, rfl⟩ := List.exists_cons_of_length_pos (by omega : 0 < ws.length)
    have top : 0 < Scalar.top (w :: ws) := Scalar.top_pos (pos w (by simp))
    have scaled : ∀ v ∈ (w :: ws).map (· / Scalar.top (w :: ws)), 0 < v :=
      List.forall_mem_map.2 fun v hv => div_pos (pos v hv) top
    rw [sharesOf, if_pos len]
    dsimp only
    rw [if_pos ((Scalar.isPositive_iff _).2 top), Scalar.sum_eq]
    exact whole_normalised scaled (by simp)

end Layout

/-! ## Ratios and areas of a page -/

namespace Native

variable {ι κ : Type}

def ratios {α : Type} : Native α ι → List α
  | leaf _ => []
  | split _ ratio a b => ratio :: (a.ratios ++ b.ratios)

/-- Every split leaves something to both sides. -/
def Proper (n : Native Rat ι) : Prop := ∀ r ∈ n.ratios, 0 < r ∧ r < 1

theorem proper_split {axis : Axis} {ratio : Rat} {a b : Native Rat ι} :
    (split axis ratio a b).Proper ↔ (0 < ratio ∧ ratio < 1) ∧ a.Proper ∧ b.Proper := by
  unfold Proper
  rw [ratios, List.forall_mem_cons, List.forall_mem_append]

theorem areasWithin_split (share ratio : Rat) (axis : Axis) (a b : Native Rat ι) :
    (split axis ratio a b).areasWithin share =
      a.areasWithin (share * ratio) ++ b.areasWithin (share * (1 - ratio)) := rfl

theorem ratios_shape {α : Type} (n : Native α ι) : n.shape.ratios = n.ratios := by
  induction n with
  | leaf i => rfl
  | split axis ratio a b iha ihb => rw [shape, ratios, iha, ihb, ratios]

theorem areasWithin_shape {α : Type} [Scalar α] (share : α) (n : Native α ι) :
    n.shape.areasWithin share = n.areasWithin share := by
  induction n generalizing share with
  | leaf i => rfl
  | split axis ratio a b iha ihb => rw [shape, areasWithin, iha, ihb, areasWithin]

theorem areasWithin_length {α : Type} [Scalar α] (share : α) (n : Native α ι) :
    (n.areasWithin share).length = n.leaves.length := by
  induction n generalizing share with
  | leaf i => rfl
  | split axis ratio a b iha ihb =>
    rw [areasWithin, List.length_append, iha, ihb, leaves, List.length_append]

/-- Whatever the ratios are, the areas make up the page. -/
theorem areasWithin_sum (share : Rat) (n : Native Rat ι) : (n.areasWithin share).sum = share := by
  induction n generalizing share with
  | leaf i => exact List.sum_singleton
  | split axis ratio a b iha ihb =>
    rw [areasWithin_split, List.sum_append, iha, ihb]
    ring

theorem areasWithin_pos {n : Native Rat ι} (proper : n.Proper) {share : Rat} (pos : 0 < share) :
    ∀ a ∈ n.areasWithin share, 0 < a := by
  induction n generalizing share with
  | leaf i => exact List.forall_mem_singleton.2 pos
  | split axis ratio a b iha ihb =>
    obtain ⟨⟨low, high⟩, ha, hb⟩ := proper_split.1 proper
    rw [areasWithin_split, List.forall_mem_append]
    exact ⟨iha ha (mul_pos pos low), ihb hb (mul_pos pos (sub_pos.2 high))⟩

/-! ## Chains -/

theorem weight_chainWeighted {axis : Axis} {cs : List (Native Rat ι × Rat)}
    {n : Native Rat ι} {w : Rat} (h : chainWeighted axis cs = some (n, w)) :
    w = (cs.map (·.2)).sum := by
  induction cs generalizing n w with
  | nil => cases h
  | cons c cs ih =>
    rw [List.map_cons, List.sum_cons]
    rcases chainWeighted_cons_cases h with ⟨rfl, -, rfl⟩ | ⟨tail, under, ht, -, rfl⟩
    · exact (add_zero c.2).symm
    · rw [← ih ht]

theorem chainWeighted_pos {axis : Axis} {cs : List (Native Rat ι × Rat)} {n : Native Rat ι}
    {w : Rat} (pos : ∀ c ∈ cs, 0 < c.2) (h : chainWeighted axis cs = some (n, w)) : 0 < w := by
  rw [weight_chainWeighted h]
  apply List.sum_pos _ (List.forall_mem_map.2 pos)
  rw [Ne, List.map_eq_nil_iff]
  rintro rfl
  cases h

theorem proper_chainWeighted {axis : Axis} {cs : List (Native Rat ι × Rat)} {n : Native Rat ι}
    {w : Rat} (pos : ∀ c ∈ cs, 0 < c.2) (proper : ∀ c ∈ cs, c.1.Proper)
    (h : chainWeighted axis cs = some (n, w)) : n.Proper := by
  induction cs generalizing n w with
  | nil => cases h
  | cons c cs ih =>
    rw [List.forall_mem_cons] at pos proper
    rcases chainWeighted_cons_cases h with ⟨-, rfl, -⟩ | ⟨tail, under, ht, rfl, -⟩
    · exact proper.1
    · have rest : 0 < under := chainWeighted_pos pos.2 ht
      have total : 0 < c.2 + under := add_pos pos.1 rest
      refine proper_split.2 ⟨⟨div_pos pos.1 total, ?_⟩, proper.1, ih pos.2 proper.2 ht⟩
      rw [div_lt_one total]
      exact lt_add_of_pos_right c.2 rest

/-- Along a chain the ratios telescope: each child has the part of the share that its weight is of
all weights. -/
theorem areasWithin_chainWeighted {axis : Axis} {cs : List (Native Rat ι × Rat)}
    {n : Native Rat ι} {w : Rat} (pos : ∀ c ∈ cs, 0 < c.2)
    (h : chainWeighted axis cs = some (n, w)) (share : Rat) :
    n.areasWithin share = cs.flatMap fun c => c.1.areasWithin (share * (c.2 / w)) := by
  induction cs generalizing n w share with
  | nil => cases h
  | cons c cs ih =>
    rw [List.forall_mem_cons] at pos
    rcases chainWeighted_cons_cases h with ⟨rfl, rfl, rfl⟩ | ⟨tail, under, ht, rfl, rfl⟩
    · rw [List.flatMap_singleton, div_self pos.1.ne', mul_one]
    · have rest : 0 < under := chainWeighted_pos pos.2 ht
      have total : 0 < c.2 + under := add_pos pos.1 rest
      have left : ∀ v, share * (1 - c.2 / (c.2 + under)) * (v / under) =
          share * (v / (c.2 + under)) := by
        intro v
        field_simp
        ring
      rw [areasWithin_split, ih pos.2 ht, List.flatMap_cons]
      simp only [left]

theorem areasWithin_chain {axis : Axis} {ns : List (Native Rat ι)} {ws : List Rat}
    {n : Native Rat ι} (len : ws.length = ns.length) (whole : Layout.Whole ws)
    (h : chain axis ns ws = some n) (share : Rat) :
    n.areasWithin share = (ns.zip ws).flatMap fun c => c.1.areasWithin (share * c.2) := by
  obtain ⟨⟨m, w⟩, hm, rfl⟩ := Option.map_eq_some_iff.1 h
  have pos : ∀ c ∈ ns.zip ws, 0 < c.2 := fun c hc => whole.1 c.2 (List.of_mem_zip hc).2
  have one : w = 1 := by
    rw [weight_chainWeighted hm, List.map_snd_zip (by omega), whole.2]
  rw [areasWithin_chainWeighted pos hm, one]
  simp only [div_one]

theorem proper_chain {axis : Axis} {ns : List (Native Rat ι)} {ws : List Rat} {n : Native Rat ι}
    (pos : ∀ w ∈ ws, 0 < w) (proper : ∀ m ∈ ns, m.Proper) (h : chain axis ns ws = some n) :
    n.Proper := by
  obtain ⟨⟨m, w⟩, hm, rfl⟩ := Option.map_eq_some_iff.1 h
  apply proper_chainWeighted (fun c hc => ?_) (fun c hc => ?_) hm
  · exact pos c.2 (List.of_mem_zip hc).2
  · exact proper c.1 (List.of_mem_zip hc).1

end Native

/-! ## Layouts -/

namespace Layout

mutual

theorem proper_shape : ∀ {t : Layout Rat} {n : Native Rat Unit},
    splitViolations t = [] → t.shape = some n → n.Proper
  | pane _, n, _, h => by
    obtain rfl := Option.some.inj h
    exact fun _ hr => nomatch hr
  | split axis cs ws, n, valid, h => by
    rw [splitViolations, List.append_eq_nil_iff] at valid
    obtain ⟨ns, hns, chain⟩ := Option.bind_eq_some_iff.1 h
    exact Native.proper_chain (whole_sharesOf valid.1).1 (proper_shapeOf valid.2 hns) chain

theorem proper_shapeOf : ∀ {cs : List (Layout Rat)} {ns : List (Native Rat Unit)},
    splitViolationsOf cs = [] → shapeOf cs = some ns → ∀ n ∈ ns, n.Proper
  | [], ns, _, h => by
    obtain rfl := Option.some.inj h
    exact fun _ hn => nomatch hn
  | c :: cs, ns, valid, h => by
    rw [splitViolationsOf, List.append_eq_nil_iff] at valid
    obtain ⟨n, hn, rest⟩ := Option.bind_eq_some_iff.1 h
    obtain ⟨ns, hns, rfl⟩ := Option.map_eq_some_iff.1 rest
    exact List.forall_mem_cons.2 ⟨proper_shape valid.1 hn, proper_shapeOf valid.2 hns⟩

end

mutual

/-- The page has the areas of the layout, in order. -/
theorem areasWithin_of_shape : ∀ {t : Layout Rat} {n : Native Rat Unit},
    splitViolations t = [] → t.shape = some n → ∀ share, n.areasWithin share = t.areasWithin share
  | pane _, n, _, h, share => by
    obtain rfl := Option.some.inj h
    rfl
  | split axis cs ws, n, valid, h, share => by
    rw [splitViolations, List.append_eq_nil_iff] at valid
    obtain ⟨ns, hns, chain⟩ := Option.bind_eq_some_iff.1 h
    have len : (sharesOf ws cs.length).length = ns.length := by
      rw [sharesOf_length, shapeOf_length hns]
    rw [Native.areasWithin_chain len (whole_sharesOf valid.1) chain, areasWithin]
    exact areasOf_of_shapeOf valid.2 hns share (sharesOf ws cs.length)

theorem areasOf_of_shapeOf : ∀ {cs : List (Layout Rat)} {ns : List (Native Rat Unit)},
    splitViolationsOf cs = [] → shapeOf cs = some ns → ∀ (share : Rat) (ws : List Rat),
      ((ns.zip ws).flatMap fun c => c.1.areasWithin (share * c.2)) = areasOf share cs ws
  | [], ns, _, h, share, ws => by
    obtain rfl := Option.some.inj h
    rw [List.zip_nil_left, areasOf]
    · rfl
    · simp
  | c :: cs, ns, valid, h, share, ws => by
    rw [splitViolationsOf, List.append_eq_nil_iff] at valid
    obtain ⟨n, hn, rest⟩ := Option.bind_eq_some_iff.1 h
    obtain ⟨ns, hns, rfl⟩ := Option.map_eq_some_iff.1 rest
    cases ws with
    | nil => rfl
    | cons w ws =>
      rw [List.zip_cons_cons, List.flatMap_cons, areasWithin_of_shape valid.1 hn,
        areasOf_of_shapeOf valid.2 hns]
      rfl

end

end Layout

/-- The page of a plan is proportioned as its layout asks: no split is empty on either side, and
pane by pane the areas are those of the layout. They are positive and make up the page. -/
theorem areas_plan {t : Layout Rat} {tables : TableMap} {plan : Plan Rat}
    (made : Plan.make (some t) tables = .ok plan) :
    (∀ r ∈ plan.layout.ratios, 0 < r ∧ r < 1) ∧
    plan.layout.areas = t.paneAreas ∧ t.paneAreas.length = t.panes.length ∧
    (∀ a ∈ t.paneAreas, 0 < a) ∧ t.paneAreas.sum = 1 := by
  obtain ⟨t', ht, valid, draws⟩ := Plan.make_ok made
  obtain rfl := Option.some.inj ht
  have splits := ((Layout.validate_eq_nil_iff t).1 valid).2.1
  have proper : plan.layout.Proper := by
    intro r hr
    rw [← Native.ratios_shape] at hr
    exact Layout.proper_shape splits draws.shape r hr
  have areas : plan.layout.areas = t.paneAreas := by
    rw [Native.areas, ← Native.areasWithin_shape]
    exact Layout.areasWithin_of_shape splits draws.shape Scalar.one
  refine ⟨proper, areas, ?_, ?_, ?_⟩ <;> rw [← areas]
  · rw [Native.areas, Native.areasWithin_length, draws.leaves, List.length_map, ← t.slots_panes tables,
      List.length_map]
  · exact Native.areasWithin_pos proper zero_lt_one
  · exact Native.areasWithin_sum 1 plan.layout

/-- Half of the page for a new pane, the other half shared out unevenly. -/
def Layout.uneven : Layout Rat :=
  .split .horizontal [
    .pane (.new "Orders" .grid .none),
    .split .vertical [.pane (.leaf ⟨1⟩), .pane (.leaf ⟨2⟩), .pane (.leaf ⟨3⟩)] (some [2, 1, 1])]
    none

theorem areas_plan_uneven : ∃ plan,
    Plan.make (some Layout.uneven) (SortedMap.insert ∅ "Orders" ⟨1⟩) = .ok plan ∧
    (∀ r ∈ plan.layout.ratios, 0 < r ∧ r < 1) ∧
    plan.layout.areas = Layout.uneven.paneAreas ∧
    Layout.uneven.paneAreas.length = Layout.uneven.panes.length ∧
    (∀ a ∈ Layout.uneven.paneAreas, 0 < a) ∧ Layout.uneven.paneAreas.sum = 1 := by
  have planned : (Plan.make (some Layout.uneven) (SortedMap.insert ∅ "Orders" ⟨1⟩)).isOk = true := by
    decide +kernel
  cases made : Plan.make (some Layout.uneven) (SortedMap.insert ∅ "Orders" ⟨1⟩) with
  | error e =>
    rw [made] at planned
    cases planned
  | ok plan => exact ⟨plan, rfl, areas_plan made⟩

example : Layout.uneven.paneAreas = [1 / 2, 1 / 4, 1 / 8, 1 / 8] := by decide +kernel

end PaneLayout
