import Mathlib.Algebra.Order.Field.Basic
import Mathlib.Algebra.Order.Field.Power
import Mathlib.Algebra.Order.Field.Rat
import Mathlib.Tactic.LinearCombination
import Mathlib.Tactic.Linarith
import Mathlib.Tactic.NormNum
import Mathlib.Tactic.Positivity
import Mathlib.Tactic.Ring
import PaneLayout.Decimal.Shortest

set_option autoImplicit false

/-!
# Shortest decimals tell doubles apart

The decimals that read as one double lie between its two edges, and these edges come from the
neighbouring doubles: the upper edge of a double is the lower edge of the next. An edge belongs to
the neighbour with the even last bit, so no decimal reads as two doubles. The search for the fewest
digits ends on a decimal of the double it was started for, since seventeen digits make a grid that is
finer than any pair of edges.
-/

namespace PaneLayout.Decimal

def Digits.value (d : Digits) : ℚ := d.digits * 10 ^ d.exponent

namespace Binary

def value (b : Binary) : ℚ := b.m * 2 ^ b.q

/-! The edges are halfway to the neighbouring doubles. -/

def low (b : Binary) : ℚ := (4 * b.m - if b.lower then 1 else 2) * 2 ^ (b.q - 2)

def high (b : Binary) : ℚ := (4 * b.m + 2) * 2 ^ (b.q - 2)

/-- The real `x` reads as the double. -/
def Reads (b : Binary) (x : ℚ) : Prop :=
  b.low ≤ x ∧ x ≤ b.high ∧ (b.m % 2 = 1 → b.low < x ∧ x < b.high)

end Binary

/-! ## One denominator -/

theorem pow_toNat {a : ℚ} (ha : a ≠ 0) (e : ℤ) : a ^ e.toNat = a ^ e * a ^ (-e).toNat := by
  rw [← zpow_natCast, ← zpow_natCast, ← zpow_add₀ ha]
  congr 1
  omega

/-- The numerators are the value, its edges and a step of the grid in one common unit. -/
theorem Scaled.exists_unit {b : Binary} (pos : 0 < b.m) (e : ℤ) :
    ∃ c : ℚ, 0 < c ∧ (Scaled.ofBinary b e).value * c = b.value ∧
      (Scaled.ofBinary b e).low * c = b.low ∧ (Scaled.ofBinary b e).high * c = b.high ∧
      (Scaled.ofBinary b e).step * c = 10 ^ e := by
  have two : ((2 : ℚ) ^ (b.q - 2).toNat * 10 ^ (-e).toNat) ≠ 0 := by positivity
  have quarter : (4 : ℚ) * 2 ^ (b.q - 2) = 2 ^ b.q := by
    rw [zpow_sub₀ two_ne_zero]
    norm_num
    ring
  have back : (2 : ℚ) ^ (2 - b.q) * 2 ^ (b.q - 2) = 1 := by
    rw [← zpow_add₀ two_ne_zero]
    norm_num
  refine ⟨2 ^ (b.q - 2) / (2 ^ (b.q - 2).toNat * 10 ^ (-e).toNat), by positivity, ?_, ?_, ?_, ?_⟩
  · simp only [ofBinary, Nat.pow_eq, Nat.cast_mul, Nat.cast_pow, Nat.cast_ofNat, Binary.value]
    rw [mul_div_assoc', div_eq_iff two, ← quarter]
    ring
  · have le : (if b.lower then 1 else 2) ≤ 4 * b.m := by split <;> omega
    simp only [ofBinary, Nat.pow_eq, Nat.cast_mul, Nat.cast_pow, Nat.cast_ofNat, Nat.cast_sub le,
      Nat.cast_ite, Nat.cast_one, Binary.low]
    rw [mul_div_assoc', div_eq_iff two]
    ring
  · simp only [ofBinary, Nat.pow_eq, Nat.cast_mul, Nat.cast_pow, Nat.cast_ofNat, Nat.cast_add,
      Binary.high]
    rw [mul_div_assoc', div_eq_iff two]
    ring
  · simp only [ofBinary, Nat.pow_eq, Nat.cast_mul, Nat.cast_pow, Nat.cast_ofNat]
    rw [mul_div_assoc', div_eq_iff two, pow_toNat (by norm_num) e, pow_toNat two_ne_zero (2 - b.q),
      neg_sub]
    linear_combination (10 : ℚ) ^ e * 10 ^ (-e).toNat * 2 ^ (b.q - 2).toNat * back

/-- A point of the grid is taken for the double only when it reads as it. -/
theorem Scaled.holds_iff {b : Binary} (pos : 0 < b.m) (e : ℤ) (d : ℕ) :
    (Scaled.ofBinary b e).holds d ↔ b.Reads (d * 10 ^ e) := by
  obtain ⟨c, hc, -, hlow, hhigh, hstep⟩ := exists_unit pos e
  have le {x y : ℕ} : x ≤ y ↔ (x : ℚ) * c ≤ y * c := by
    rw [mul_le_mul_iff_left₀ hc, Nat.cast_le]
  have lt {x y : ℕ} : x < y ↔ (x : ℚ) * c < y * c := by
    rw [mul_lt_mul_iff_left₀ hc, Nat.cast_lt]
  have scale : ((d * (Scaled.ofBinary b e).step : ℕ) : ℚ) * c = d * 10 ^ e := by
    rw [Nat.cast_mul, mul_assoc, hstep]
  have closed : (Scaled.ofBinary b e).closed = decide (b.m % 2 = 0) := rfl
  unfold holds Binary.Reads
  rw [closed]
  rcases Nat.mod_two_eq_zero_or_one b.m with even | odd
  · simp only [even, decide_true, if_true, Bool.and_eq_true, decide_eq_true_eq, le, scale, hlow,
      hhigh]
    simp
  · simp only [odd, Nat.one_ne_zero, decide_false, Bool.false_eq_true, if_false, Bool.and_eq_true,
      decide_eq_true_eq, lt, scale, hlow, hhigh]
    exact ⟨fun ⟨h, k⟩ => ⟨h.le, k.le, fun _ => ⟨h, k⟩⟩, fun ⟨_, _, h⟩ => h trivial⟩

theorem Scaled.holds_of_pick? {s : Scaled} {up : ℕ → Bool} {d : ℕ} (h : s.pick? up = some d) :
    s.holds d := by
  unfold pick? at h
  dsimp only at h
  grind

theorem Scaled.holds_of_between {s : Scaled} {d : ℕ} (below : s.low < d * s.step)
    (above : d * s.step < s.high) : s.holds d := by
  unfold holds
  cases s.closed <;> simp [below, above, below.le, above.le]

/-- One of the two neighbours on the grid is taken when a step is shorter than the edges are
apart. -/
theorem Scaled.pick?_isSome {s : Scaled} (up : ℕ → Bool) (step : 0 < s.step)
    (below : s.low < s.value) (above : s.value < s.high) (fine : s.low + s.step < s.high) :
    (s.pick? up).isSome := by
  have le : s.value / s.step * s.step ≤ s.value := Nat.div_mul_le_self ..
  have lt : s.value < (s.value / s.step + 1) * s.step := Nat.lt_mul_of_div_lt (Nat.lt_succ_self _) step
  have taken : s.holds (s.value / s.step) ∨ s.holds (s.value / s.step + 1) := by
    by_cases far : s.low < s.value / s.step * s.step
    · exact .inl (holds_of_between far (le.trans_lt above))
    · refine .inr (holds_of_between (below.trans lt) ?_)
      rw [Nat.add_mul, Nat.one_mul]
      omega
  unfold pick?
  dsimp only
  rcases taken with h | h <;> rw [h] <;> split <;> simp_all

/-! ## The search -/

theorem trim_value (d : Digits) (n : ℕ) : (trim d n).value = d.value := by
  induction n generalizing d with
  | zero => rfl
  | succ n ih =>
    rw [trim]
    split
    · next zero =>
      have whole : ((d.digits / 10 : ℕ) : ℚ) * 10 = d.digits := by
        exact_mod_cast Nat.div_mul_cancel (Nat.dvd_of_mod_eq_zero zero)
      rw [ih, Digits.value, Digits.value, zpow_add_one₀ (by norm_num), ← whole]
      ring
    · rfl

/-- The search ends on a decimal that reads as the double when some grid on its way has one. -/
theorem search_reads {b : Binary} (pos : 0 < b.m) {k : ℤ} {up : ℕ → Bool} {j : ℕ}
    (there : ((Scaled.ofBinary b (k - j)).pick? up).isSome) (fuel n : ℕ) (le : n ≤ j)
    (lt : j < n + fuel) : b.Reads (search b k up n fuel).value := by
  induction fuel generalizing n with
  | zero => omega
  | succ fuel ih =>
    rw [search]
    split
    · next d found =>
      rw [trim_value]
      exact (Scaled.holds_iff pos _ d).1 (Scaled.holds_of_pick? found)
    · next none =>
      have ne : n ≠ j := by
        rintro rfl
        rw [none] at there
        cases there
      exact ih (n + 1) (by omega) (by omega)

/-! ## The magnitude -/

/-- Powers of ten and of two are compared through a pair of them that are close. -/
theorem ten_pow_le_two_pow {x l : ℤ} {a b : ℕ} (hb : b ≠ 0) (near : x * b ≤ a * l)
    (pair : ((10 : ℚ) ^ a) ^ l ≤ (2 ^ b) ^ l) : (10 : ℚ) ^ x ≤ 2 ^ l := by
  refine le_of_pow_le_pow_left₀ hb (by positivity) ?_
  calc ((10 : ℚ) ^ x) ^ b = 10 ^ (x * b) := by rw [← zpow_natCast, zpow_mul]
    _ ≤ 10 ^ (a * l) := zpow_le_zpow_right₀ (by norm_num) near
    _ = (10 ^ a) ^ l := by rw [zpow_mul, zpow_natCast]
    _ ≤ (2 ^ b) ^ l := pair
    _ = (2 ^ l) ^ b := by rw [← zpow_natCast, ← zpow_natCast, ← zpow_mul, ← zpow_mul, mul_comm]

/-- The logarithm of two is taken to five places, which is near enough for the exponents of doubles. -/
theorem ten_pow_guess_le {l : ℤ} (above : -1100 ≤ l) (below : l ≤ 1100) :
    (10 : ℚ) ^ (l * 30103 / 100000 - 1) ≤ 2 ^ l := by
  rcases lt_or_ge l 0 with neg | pos
  · refine ten_pow_le_two_pow (a := 28) (b := 93) (by norm_num) (by omega) ?_
    obtain ⟨n, rfl⟩ : ∃ n : ℕ, l = -n := ⟨l.natAbs, by omega⟩
    rw [zpow_neg, zpow_neg, zpow_natCast, zpow_natCast]
    exact inv_anti₀ (by positivity) (pow_le_pow_left₀ (by norm_num) (by norm_num) n)
  · exact ten_pow_le_two_pow (a := 31) (b := 103) (by norm_num) (by omega)
      (zpow_le_zpow_left₀ pos (by norm_num) (by norm_num))

theorem reaches_iff (b : Binary) (k : ℤ) :
    Nat.pow 10 k.toNat * Nat.pow 2 (-b.q).toNat ≤
      b.m * Nat.pow 2 b.q.toNat * Nat.pow 10 (-k).toNat ↔ (10 : ℚ) ^ k ≤ b.value := by
  have unit : (0 : ℚ) < 2 ^ (-b.q).toNat * 10 ^ (-k).toNat := by positivity
  rw [← mul_le_mul_iff_left₀ unit, ← Nat.cast_le (α := ℚ)]
  simp only [Nat.pow_eq, Nat.cast_mul, Nat.cast_pow, Nat.cast_ofNat, Binary.value]
  rw [pow_toNat (by norm_num) k, pow_toNat two_ne_zero b.q]
  constructor <;> intro h <;> linarith

/-- The value has at least as many digits before the point as its magnitude says. -/
theorem pow_magnitude_le {b : Binary} (pos : 0 < b.m) (above : -1100 ≤ Nat.log2 b.m + b.q)
    (below : Nat.log2 b.m + b.q ≤ 1100) : (10 : ℚ) ^ (magnitude b - 1) ≤ b.value := by
  have least : (2 : ℚ) ^ (Nat.log2 b.m + b.q) ≤ b.value := by
    have le : ((2 : ℚ) ^ Nat.log2 b.m) ≤ b.m := by exact_mod_cast Nat.log2_self_le pos.ne'
    rw [zpow_add₀ two_ne_zero, zpow_natCast, Binary.value]
    exact mul_le_mul_of_nonneg_right le (by positivity)
  unfold magnitude
  simp only [decide_eq_true_eq, reaches_iff]
  split
  · next h => exact le_of_eq_of_le (by congr 1; omega) h
  · split
    · next h => exact le_of_eq_of_le (by congr 1; omega) h
    · exact (ten_pow_guess_le above below).trans least

/-! ## Seventeen digits -/

/-- What the fields of a positive double are like. -/
structure Binary.Regular (b : Binary) : Prop where
  pos : 0 < b.m
  lt : b.m < 2 ^ 53
  lower : b.lower → b.m = 2 ^ 52
  above : -1074 ≤ b.q
  below : b.q ≤ 972

namespace Binary.Regular

variable {b : Binary} (h : b.Regular)
include h

theorem pow_magnitude_le : (10 : ℚ) ^ (magnitude b - 1) ≤ b.value := by
  have small : Nat.log2 b.m < 53 := (Nat.log2_lt h.pos.ne').2 h.lt
  have above := h.above
  have below := h.below
  exact Decimal.pow_magnitude_le h.pos (by omega) (by omega)

theorem pick?_seventeen (up : ℕ → Bool) :
    ((Scaled.ofBinary b (magnitude b - (17 : ℕ))).pick? up).isSome := by
  obtain ⟨c, hc, hvalue, hlow, hhigh, hstep⟩ := Scaled.exists_unit h.pos (magnitude b - (17 : ℕ))
  have quarter : b.value = 4 * b.m * 2 ^ (b.q - 2) := by
    rw [Binary.value, zpow_sub₀ two_ne_zero]
    norm_num
    ring
  have unit : (0 : ℚ) < 2 ^ (b.q - 2) := by positivity
  have steps : (10 : ℚ) ^ (magnitude b - (17 : ℕ)) * 10 ^ 16 ≤ b.value := by
    refine le_of_eq_of_le ?_ h.pow_magnitude_le
    rw [← zpow_natCast, ← zpow_add₀ (by norm_num)]
    congr 1
    omega
  have lt : (b.m : ℚ) < 2 ^ 53 := by exact_mod_cast h.lt
  have lt' {x y : ℕ} (less : (x : ℚ) * c < y * c) : x < y := by
    exact_mod_cast (mul_lt_mul_iff_left₀ hc).1 less
  refine Scaled.pick?_isSome up (lt' ?_) (lt' ?_) (lt' ?_) (lt' ?_)
  · rw [hstep, Nat.cast_zero, zero_mul]
    positivity
  · rw [hlow, hvalue, quarter, Binary.low]
    split <;> nlinarith
  · rw [hhigh, hvalue, quarter, Binary.high]
    nlinarith
  · rw [Nat.cast_add, add_mul, hlow, hstep, hhigh, Binary.low, Binary.high]
    rw [quarter] at steps
    split
    · next low =>
      have m : (b.m : ℚ) = 2 ^ 52 := by exact_mod_cast h.lower low
      rw [m] at steps ⊢
      nlinarith
    · nlinarith

theorem search_reads (up : ℕ → Bool) : b.Reads (search b (magnitude b) up 1 17).value :=
  Decimal.search_reads h.pos (h.pick?_seventeen up) 17 1 (by omega) (by omega)

end Binary.Regular

theorem Binary.regular_ofBits {bits : UInt64} (pos : 0 < bits.toNat) (lt : bits.toNat < 2 ^ 63) :
    (Binary.ofBits bits).Regular := by
  have fraction : bits.toNat % 2 ^ 52 < 2 ^ 52 := Nat.mod_lt _ (by positivity)
  have exponent : bits.toNat / 2 ^ 52 % 2 ^ 11 < 2 ^ 11 := Nat.mod_lt _ (by positivity)
  unfold Binary.ofBits
  simp only [Nat.pow_eq]
  split
  · next zero =>
    exact ⟨by simp only; omega, by simp only; omega, by simp, by simp, by simp⟩
  · refine ⟨by simp only; omega, by simp only; omega, ?_, by simp only; omega, by simp only; omega⟩
    simp only [Bool.and_eq_true, decide_eq_true_eq]
    rintro ⟨zero, -⟩
    omega

/-- The shortest digits of a double read as it. -/
theorem reads_shortest {bits : UInt64} (up : ℕ → Bool) (pos : 0 < bits.toNat)
    (lt : bits.toNat < 2 ^ 63) : (Binary.ofBits bits).Reads (shortest up bits).value :=
  (Binary.regular_ofBits pos lt).search_reads up

/-! ## Edges -/

namespace Binary

theorem low_lt_high (b : Binary) : b.low < b.high := by
  unfold low high
  refine mul_lt_mul_of_pos_right ?_ (by positivity)
  split <;> linarith

/-- The last bit of a double is that of its significand. -/
theorem ofBits_parity (bits : UInt64) : (ofBits bits).m % 2 = bits.toNat % 2 := by
  unfold ofBits
  simp only [Nat.pow_eq]
  split <;> simp only <;> omega

theorem ofBits_eq {bits : UInt64} {fraction exponent : ℕ} (hf : bits.toNat % 2 ^ 52 = fraction)
    (he : bits.toNat / 2 ^ 52 % 2 ^ 11 = exponent) : ofBits bits =
      if exponent = 0 then ⟨fraction, -1074, false⟩
      else ⟨2 ^ 52 + fraction, exponent - 1075, fraction = 0 && exponent != 1⟩ := by
  subst hf he
  rfl

/-- Two doubles that follow each other share an edge. -/
theorem high_eq_low {x y : UInt64} (next : y.toNat = x.toNat + 1) (lt : y.toNat < 2 ^ 63) :
    (ofBits x).high = (ofBits y).low := by
  have double (q : ℤ) : (2 : ℚ) ^ (q + 1 - 2) = 2 * 2 ^ (q - 2) := by
    rw [mul_comm, ← zpow_add_one₀ two_ne_zero]
    congr 1
    ring
  obtain ⟨f, hf⟩ : ∃ f, x.toNat % 2 ^ 52 = f := ⟨_, rfl⟩
  obtain ⟨e, he⟩ : ∃ e, x.toNat / 2 ^ 52 % 2 ^ 11 = e := ⟨_, rfl⟩
  rw [ofBits_eq hf he]
  by_cases last : f + 1 = 2 ^ 52
  · -- The significand is full, and the exponent goes up.
    obtain rfl : f = 2 ^ 52 - 1 := by omega
    have hf' : y.toNat % 2 ^ 52 = 0 := by omega
    have he' : y.toNat / 2 ^ 52 % 2 ^ 11 = e + 1 := by omega
    rw [ofBits_eq hf' he']
    cases e with
    | zero => norm_num [high, low]
    | succ e =>
      have up : ((e + 1 + 1 : ℕ) : ℤ) - 1075 = ((e + 1 : ℕ) : ℤ) - 1075 + 1 := by push_cast; ring
      rw [if_neg (Nat.succ_ne_zero _), if_neg (Nat.succ_ne_zero _), high, low]
      simp only [up, double]
      norm_num
      ring
  · have hf' : y.toNat % 2 ^ 52 = f + 1 := by omega
    have he' : y.toNat / 2 ^ 52 % 2 ^ 11 = e := by omega
    rw [ofBits_eq hf' he']
    cases e <;>
      (simp only [if_true, Nat.succ_ne_zero, decide_false, Bool.false_and, Bool.false_eq_true,
        if_false, high, low]
       congr 1
       push_cast
       ring)

/-- The edges go up with the doubles. -/
theorem high_le_low {x y : UInt64} (less : x.toNat < y.toNat) (lt : y.toNat < 2 ^ 63) :
    (ofBits x).high ≤ (ofBits y).low ∧
      ((ofBits x).high = (ofBits y).low → y.toNat = x.toNat + 1) := by
  obtain ⟨n, hn⟩ : ∃ n, y.toNat = x.toNat + 1 + n := ⟨y.toNat - (x.toNat + 1), by omega⟩
  induction n generalizing y with
  | zero => exact ⟨(high_eq_low hn lt).le, fun _ => hn⟩
  | succ n ih =>
    obtain ⟨z, hz⟩ : ∃ z : UInt64, z.toNat = x.toNat + 1 + n :=
      ⟨.ofNat (x.toNat + 1 + n), UInt64.toNat_ofNat_of_lt
        (lt_trans (by omega : x.toNat + 1 + n < 2 ^ 63) (by decide))⟩
    have less' : (ofBits x).high < (ofBits y).low :=
      calc (ofBits x).high ≤ (ofBits z).low := (ih (by omega) (by omega) hz).1
        _ < (ofBits z).high := low_lt_high _
        _ = (ofBits y).low := high_eq_low (by omega) lt
    exact ⟨less'.le, fun eq => absurd eq less'.ne⟩

/-- No real reads as two doubles. -/
theorem Reads.unique {x y : UInt64} {a : ℚ} (hx : (ofBits x).Reads a) (hy : (ofBits y).Reads a)
    (ltx : x.toNat < 2 ^ 63) (lty : y.toNat < 2 ^ 63) : x = y := by
  have key {x y : UInt64} (hx : (ofBits x).Reads a) (hy : (ofBits y).Reads a)
      (less : x.toNat < y.toNat) (lt : y.toNat < 2 ^ 63) : False := by
    obtain ⟨apart, touch⟩ := high_le_low less lt
    obtain ⟨-, xle, xodd⟩ := hx
    obtain ⟨yle, -, yodd⟩ := hy
    have next := touch (le_antisymm apart (yle.trans xle))
    -- The edge that they share belongs to only one of them.
    rcases Nat.mod_two_eq_zero_or_one x.toNat with even | odd
    · have open' := yodd ((ofBits_parity y).trans (by omega))
      exact absurd (open'.1.trans_le xle) (not_lt_of_ge apart)
    · have open' := xodd ((ofBits_parity x).trans odd)
      exact absurd (yle.trans_lt open'.2) (not_lt_of_ge apart)
  rcases Nat.lt_trichotomy x.toNat y.toNat with less | same | more
  · exact (key hx hy less lty).elim
  · exact UInt64.toNat_inj.1 same
  · exact (key hy hx more ltx).elim

end Binary

/-- Doubles with the same shortest digits are the same. -/
theorem shortest_inj {up : ℕ → Bool} {x y : UInt64} (posx : 0 < x.toNat) (posy : 0 < y.toNat)
    (ltx : x.toNat < 2 ^ 63) (lty : y.toNat < 2 ^ 63)
    (same : (shortest up x).value = (shortest up y).value) : x = y :=
  (reads_shortest up posx ltx).unique (same ▸ reads_shortest up posy lty) ltx lty

/-- The shortest digits of a positive double are not all zero. -/
theorem shortest_pos {up : ℕ → Bool} {x : UInt64} (pos : 0 < x.toNat) (lt : x.toNat < 2 ^ 63) :
    0 < (shortest up x).digits := by
  by_contra none
  have zero : (shortest up x).value = 0 := by
    rw [Digits.value, Nat.eq_zero_of_not_pos none, Nat.cast_zero, zero_mul]
  have regular := Binary.regular_ofBits pos lt
  have reads := (reads_shortest up pos lt).1
  have m : (1 : ℚ) ≤ (Binary.ofBits x).m := by exact_mod_cast regular.pos
  have low : 0 < (Binary.ofBits x).low := by
    unfold Binary.low
    refine mul_pos ?_ (by positivity)
    split <;> linarith
  exact absurd (zero ▸ reads) (not_le_of_gt low)

theorem shortest_value_ne_zero {up : ℕ → Bool} {x : UInt64} (pos : 0 < x.toNat)
    (lt : x.toNat < 2 ^ 63) : (shortest up x).value ≠ 0 :=
  mul_ne_zero (Nat.cast_ne_zero.2 (shortest_pos pos lt).ne') (by positivity)

end PaneLayout.Decimal
