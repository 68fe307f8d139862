import Mathlib

set_option autoImplicit false

/-!
# Rounding of doubles

What a double operation makes of an exact result is the result itself if some double stands for it,
and otherwise the next double below or above. That much, and no more about which of the two it is,
decides where the results lie.
-/

namespace PaneLayout.Double

open Float.Model Float.Model.UnpackedFloat

/-! ## The grid -/

/-- The rationals that a double of any size can stand for. -/
def OnGrid (c : ℚ) : Prop := ∃ (m : ℕ) (e : ℤ), m ≤ 2 ^ 53 ∧ -1074 ≤ e ∧ c = m * 2 ^ e

/-- The number `c` is `r`, or next to it on the grid. -/
def Rounds (r c : ℚ) : Prop := ∀ d, OnGrid d → (d ≤ r → d ≤ c) ∧ (r ≤ d → c ≤ d)

theorem Rounds.eq {r c : ℚ} (h : Rounds r c) (grid : OnGrid r) : c = r :=
  le_antisymm ((h r grid).2 le_rfl) ((h r grid).1 le_rfl)

theorem onGrid_natCast {n : ℕ} (small : n ≤ 2 ^ 53) : OnGrid n :=
  ⟨n, 0, small, by decide, by rw [zpow_zero, mul_one]⟩

/-! ## Mantissas with their residual bits -/

/-- What is left of `ρ` when it is cut off after the unit. -/
structure Cuts (em : ExtendedMantissa) (ρ : ℚ) : Prop where
  low : em.mantissa ≤ ρ
  high : ρ < em.mantissa + 1
  exact : ρ = em.mantissa → em.roundBit = false

theorem Cuts.shiftRightOne {em : ExtendedMantissa} {ρ : ℚ} (h : Cuts em ρ) :
    Cuts em.shiftRightOne (ρ / 2) := by
  have low := h.low
  have high := h.high
  have split : (em.mantissa : ℚ) = 2 * (em.mantissa / 2 : ℕ) + (em.mantissa % 2 : ℕ) := by
    exact_mod_cast (Nat.div_add_mod em.mantissa 2).symm
  have bit : ((em.mantissa % 2 : ℕ) : ℚ) ≤ 1 := by
    exact_mod_cast Nat.lt_succ_iff.1 (Nat.mod_lt em.mantissa two_pos)
  have nonneg : (0 : ℚ) ≤ (em.mantissa % 2 : ℕ) := Nat.cast_nonneg _
  constructor
  · change ((em.mantissa / 2 : ℕ) : ℚ) ≤ ρ / 2
    linarith
  · change ρ / 2 < ((em.mantissa / 2 : ℕ) : ℚ) + 1
    linarith
  · intro exact
    change ρ / 2 = ((em.mantissa / 2 : ℕ) : ℚ) at exact
    change (em.mantissa % 2 != 0) = false
    have even : ((em.mantissa % 2 : ℕ) : ℚ) ≤ 0 := by linarith
    have even : em.mantissa % 2 ≤ 0 := by exact_mod_cast even
    rw [Nat.le_zero.1 even]
    rfl

theorem Cuts.shiftRight {em : ExtendedMantissa} {ρ : ℚ} (h : Cuts em ρ) (n : ℕ) :
    Cuts (em >>> n) (ρ / 2 ^ n) := by
  induction n with
  | zero =>
    rw [pow_zero, div_one]
    exact h
  | succ n ih =>
    rw [pow_succ, ← div_div]
    exact ih.shiftRightOne

theorem mantissa_shiftRight (em : ExtendedMantissa) (n : ℕ) :
    (em >>> n).mantissa = em.mantissa / 2 ^ n := by
  induction n with
  | zero => exact (Nat.div_one _).symm
  | succ n ih =>
    change (em >>> n).mantissa / 2 = _
    rw [ih, Nat.div_div_eq_div_mul, pow_succ]

theorem mantissa_ofAccuracy (m : ℕ) (acc : Accuracy) :
    (ExtendedMantissa.ofMantissaAndAccuracy m acc).mantissa = m := by
  rcases acc with _ | _ | _ | _ <;> rfl

/-- Rounding goes up by one at most, and not if nothing was cut off. -/
theorem Cuts.rounded {em : ExtendedMantissa} {ρ : ℚ} (h : Cuts em ρ) :
    em.roundedMantissa = em.mantissa ∨
      em.roundedMantissa = em.mantissa + 1 ∧ ρ ≠ em.mantissa := by
  obtain ⟨m, round, sticky⟩ := em
  cases round with
  | false => cases sticky <;> exact .inl rfl
  | true =>
    have inexact : ρ ≠ m := fun same => Bool.noConfusion (h.exact same)
    cases sticky with
    | true => exact .inr ⟨rfl, inexact⟩
    | false =>
      change m + m % 2 = m ∨ m + m % 2 = m + 1 ∧ _
      rcases Nat.mod_two_eq_zero_or_one m with even | odd
      · exact .inl (by rw [even, Nat.add_zero])
      · exact .inr ⟨by rw [odd], inexact⟩

theorem cuts_exact (m : ℕ) : Cuts (.ofMantissaAndAccuracy m .exact) m :=
  ⟨le_rfl, lt_add_one _, fun _ => rfl⟩

/-! ## Rounding -/

theorem targetExponent_eq (te : ℤ) :
    Format.targetExponent .binary64 te = max (te - 53) (-1074) := rfl

theorem log2_le_of_lt {m : ℕ} (size : m < 2 ^ 53) : m.log2 ≤ 52 := by
  rcases Nat.eq_zero_or_pos m with rfl | pos
  · decide
  · exact Nat.lt_succ_iff.1 ((Nat.log2_lt (Nat.ne_of_gt pos)).2 size)

/-- A mantissa with enough places, or with as many as there can be, is not to be extended. -/
theorem le_targetExponent {m : ℕ} {e : ℤ} (enough : 2 ^ 52 ≤ m ∨ e ≤ -1074) :
    e ≤ Format.targetExponent .binary64 (totalExponent m e) := by
  rw [targetExponent_eq, totalExponent]
  rcases enough with full | least
  · have log : 52 ≤ m.log2 := (Nat.le_log2 (by omega)).2 full
    omega
  · exact least.trans (le_max_right _ _)

/-- Numbers of the grid do not fall between a full mantissa and the next one. -/
theorem grid_apart {c : ℚ} (grid : OnGrid c) {M : ℕ} {t : ℤ} (full : 2 ^ 52 ≤ M ∨ t = -1074) :
    c ≤ M * 2 ^ t ∨ (M + 1) * 2 ^ t ≤ c := by
  obtain ⟨m, e, size, low, rfl⟩ := grid
  by_cases fine : e < t
  · left
    have big : 2 ^ 52 ≤ M := full.resolve_right (by omega)
    calc (m : ℚ) * 2 ^ e ≤ 2 ^ 53 * 2 ^ (t - 1) := by
          gcongr
          · exact_mod_cast size
          · norm_num
          · omega
      _ = 2 ^ 52 * 2 ^ t := by
          rw [zpow_sub_one₀ two_ne_zero]
          ring
      _ ≤ M * 2 ^ t := by
          gcongr
          exact_mod_cast big
  · obtain ⟨k, rfl⟩ : ∃ k : ℕ, e = t + k := ⟨(e - t).toNat, by omega⟩
    rw [zpow_add₀ two_ne_zero, zpow_natCast]
    have unit : (0 : ℚ) < 2 ^ t := zpow_pos two_pos t
    rcases Nat.lt_or_ge M (m * 2 ^ k) with lt | ge
    · right
      have le : ((M + 1 : ℕ) : ℚ) ≤ ((m * 2 ^ k : ℕ) : ℚ) := by exact_mod_cast lt
      push_cast at le
      nlinarith
    · left
      have le : ((m * 2 ^ k : ℕ) : ℚ) ≤ (M : ℚ) := by exact_mod_cast ge
      push_cast at le
      nlinarith

/-- The mantissa that is kept is full, unless the exponent is the least. -/
theorem shifted_size {m : ℕ} {e : ℤ} (pos : 0 < m)
    (enough : e ≤ Format.targetExponent .binary64 (totalExponent m e)) :
    let t := Format.targetExponent .binary64 (totalExponent m e)
    m / 2 ^ (t - e).toNat < 2 ^ 53 ∧ (2 ^ 52 ≤ m / 2 ^ (t - e).toNat ∨ t = -1074) := by
  intro t
  have upper := Nat.lt_log2_self (n := m)
  have lower := Nat.log2_self_le (Nat.ne_of_gt pos)
  have ht : t = max ((m.log2 : ℤ) + 1 + e - 53) (-1074) := rfl
  constructor
  · rw [Nat.div_lt_iff_lt_mul (by positivity), ← pow_add]
    exact upper.trans_le (Nat.pow_le_pow_right two_pos (by omega))
  · by_cases least : t = -1074
    · exact .inr least
    · left
      rw [Nat.le_div_iff_mul_le (by positivity), ← pow_add]
      exact (Nat.pow_le_pow_right two_pos (by omega)).trans lower

/-- A mantissa as it is packed. -/
structure Fits (m : ℕ) (e : ℤ) : Prop where
  size : m < 2 ^ 53
  low : -1074 ≤ e
  full : 2 ^ 52 ≤ m ∨ e = -1074

/-- What is left to do after rounding: a mantissa that has become too long is halved. -/
theorem shiftToTarget_rounded {N : ℕ} {t : ℤ} (size : N ≤ 2 ^ 53) (low : -1074 ≤ t)
    (full : 2 ^ 52 ≤ N ∨ t = -1074) :
    ∃ N' t', Fits N' t' ∧ (N' : ℚ) * 2 ^ t' = N * 2 ^ t ∧
      ((shiftToTargetExponent .binary64 N t .exact).1.mantissa,
        (shiftToTargetExponent .binary64 N t .exact).2) = (N', t') := by
  rcases Nat.lt_or_ge N (2 ^ 53) with lt | ge
  · refine ⟨N, t, ⟨lt, low, full⟩, rfl, ?_⟩
    have log := log2_le_of_lt lt
    have none : (Format.targetExponent .binary64 (totalExponent N t) - t).toNat = 0 := by
      rw [targetExponent_eq, totalExponent]
      omega
    rw [shiftToTargetExponent, shiftToExponent, none]
    exact congrArg₂ Prod.mk rfl (add_zero t)
  · obtain rfl : N = 2 ^ 53 := le_antisymm size ge
    refine ⟨2 ^ 52, t + 1, ⟨by norm_num, by omega, .inl le_rfl⟩, ?_, ?_⟩
    · rw [zpow_add_one₀ two_ne_zero]
      push_cast
      ring
    · have once : (Format.targetExponent .binary64 (totalExponent (2 ^ 53) t) - t).toNat = 1 := by
        rw [targetExponent_eq, totalExponent, Nat.log2_two_pow]
        omega
      rw [shiftToTargetExponent, shiftToExponent, once]
      rfl

theorem Cuts.rounds {em : ExtendedMantissa} {ρ : ℚ} (h : Cuts em ρ) {t : ℤ}
    (full : 2 ^ 52 ≤ em.mantissa ∨ t = -1074) :
    Rounds (ρ * 2 ^ t) (em.roundedMantissa * 2 ^ t) := by
  have unit : (0 : ℚ) < 2 ^ t := zpow_pos two_pos t
  have below : (em.mantissa : ℚ) * 2 ^ t ≤ ρ * 2 ^ t := mul_le_mul_of_nonneg_right h.low unit.le
  have above : ρ * 2 ^ t < (em.mantissa + 1) * 2 ^ t := mul_lt_mul_of_pos_right h.high unit
  intro d grid
  rcases h.rounded with same | ⟨up, inexact⟩
  · rw [same]
    rcases grid_apart grid full with le | ge
    · exact ⟨fun _ => le, below.trans⟩
    · exact ⟨fun hd => absurd (ge.trans hd) (not_le.2 above), below.trans⟩
  · rw [up, Nat.cast_add_one]
    rcases grid_apart grid full with le | ge
    · refine ⟨fun hd => hd.trans above.le, fun hd => absurd ?_ inexact⟩
      exact mul_right_cancel₀ unit.ne' (le_antisymm (hd.trans le) below)
    · exact ⟨fun hd => hd.trans above.le, fun _ => ge⟩

/-- A mantissa that may have been rounded to zero. -/
def ofMantissa (m : ℕ) (e : ℤ) : UnpackedFloat :=
  if h : m = 0 then .zero .positive else .finite .positive m e (Nat.pos_of_ne_zero h)

/-- The unpacked double is what an operation makes of its exact result. -/
def MadeFrom (r : ℚ) (u : UnpackedFloat) : Prop :=
  ∃ m e, Fits m e ∧ Rounds r (m * 2 ^ e) ∧ u = ofMantissa m e

theorem madeFrom_roundWithAccuracy {m : ℕ} {e : ℤ} {acc : Accuracy} {ρ : ℚ} (pos : 0 < m)
    (cuts : Cuts (.ofMantissaAndAccuracy m acc) ρ)
    (enough : e ≤ Format.targetExponent .binary64 (totalExponent m e)) :
    MadeFrom (ρ * 2 ^ e) (roundWithAccuracy .binary64 .positive m e acc) := by
  obtain ⟨size, full⟩ := shifted_size pos enough
  generalize target : Format.targetExponent .binary64 (totalExponent m e) = t at *
  obtain ⟨s, hs⟩ : ∃ s : ℕ, (t - e).toNat = s := ⟨_, rfl⟩
  have moved : t = e + s := by omega
  rw [hs] at size full
  have kept := mantissa_shiftRight (.ofMantissaAndAccuracy m acc) s
  rw [mantissa_ofAccuracy] at kept
  have cuts := cuts.shiftRight s
  have low : -1074 ≤ t := by
    rw [← target, targetExponent_eq]
    exact le_max_right _ _
  have scale : ρ / 2 ^ s * 2 ^ t = ρ * 2 ^ e := by
    rw [moved, zpow_add₀ two_ne_zero, zpow_natCast]
    field_simp
  have rounds := cuts.rounds (kept.symm ▸ full)
  rw [scale] at rounds
  generalize hM : (ExtendedMantissa.ofMantissaAndAccuracy m acc >>> s).roundedMantissa = M at *
  have near : M = m / 2 ^ s ∨ M = m / 2 ^ s + 1 := by
    rw [← hM, ← kept]
    exact cuts.rounded.imp_right And.left
  obtain ⟨N, t', fits, value, shifted⟩ :=
    shiftToTarget_rounded (by omega : M ≤ 2 ^ 53) low (by omega)
  rw [← value] at rounds
  refine ⟨N, t', fits, rounds, ?_⟩
  have first : shiftToTargetExponent .binary64 m e acc =
      (ExtendedMantissa.ofMantissaAndAccuracy m acc >>> s, t) := by
    rw [shiftToTargetExponent, shiftToExponent, target, hs, ← moved]
  obtain ⟨rfl, rfl⟩ := Prod.mk.inj shifted
  rw [roundWithAccuracy, first]
  dsimp only
  rw [hM]
  rfl

/-! ## Operations on mantissas -/

/-- The quotient of mantissas is exact if nothing is left over. -/
theorem cuts_quotient (m : ℕ) {n : ℕ} (pos : 0 < n) :
    Cuts (.ofMantissaAndAccuracy (m / n) (accuracyOfFraction (m % n) n)) (m / n) := by
  have npos : (0 : ℚ) < n := Nat.cast_pos.2 pos
  have split : (m : ℚ) = n * (m / n : ℕ) + (m % n : ℕ) := by
    exact_mod_cast (Nat.div_add_mod m n).symm
  have rest : ((m % n : ℕ) : ℚ) < n := Nat.cast_lt.2 (Nat.mod_lt m pos)
  constructor
  · rw [mantissa_ofAccuracy, le_div_iff₀ npos]
    have nonneg : (0 : ℚ) ≤ (m % n : ℕ) := Nat.cast_nonneg _
    linarith
  · rw [mantissa_ofAccuracy, div_lt_iff₀ npos]
    linarith
  · intro exact
    rw [mantissa_ofAccuracy, div_eq_iff npos.ne'] at exact
    have none : ((m % n : ℕ) : ℚ) = 0 := by linarith
    rw [accuracyOfFraction, if_pos (Nat.cast_eq_zero.1 none)]
    rfl

theorem quotient_full {m₁ m₂ s : ℕ} (pos₁ : 0 < m₁) (pos₂ : 0 < m₂)
    (places : m₂.log2 + 53 ≤ m₁.log2 + s) : 2 ^ 52 ≤ m₁ * 2 ^ s / m₂ := by
  rw [Nat.le_div_iff_mul_le pos₂]
  calc 2 ^ 52 * m₂ ≤ 2 ^ 52 * 2 ^ (m₂.log2 + 1) := Nat.mul_le_mul_left _ Nat.lt_log2_self.le
    _ = 2 ^ (m₂.log2 + 53) := by rw [← pow_add, Nat.add_comm, Nat.add_assoc]
    _ ≤ 2 ^ (m₁.log2 + s) := Nat.pow_le_pow_right two_pos places
    _ = 2 ^ m₁.log2 * 2 ^ s := pow_add 2 _ _
    _ ≤ m₁ * 2 ^ s := Nat.mul_le_mul_right _ (Nat.log2_self_le (Nat.ne_of_gt pos₁))

theorem madeFrom_div {m₁ m₂ : ℕ} {e₁ e₂ : ℤ} (pos₁ : 0 < m₁) (pos₂ : 0 < m₂) (size : m₁ < 2 ^ 53)
    (low : (2 : ℚ) ^ (-1074 : ℤ) ≤ m₁ * 2 ^ e₁ / (m₂ * 2 ^ e₂)) :
    MadeFrom (m₁ * 2 ^ e₁ / (m₂ * 2 ^ e₂)) (UnpackedFloat.div .binary64
      (.finite .positive m₁ e₁ pos₁) (.finite .positive m₂ e₂ pos₂)) := by
  obtain ⟨E, hE⟩ : ∃ E, min (e₁ - e₂) (Format.targetExponent .binary64
    (totalExponent m₁ e₁ - totalExponent m₂ e₂)) = E := ⟨_, rfl⟩
  obtain ⟨s, hs⟩ : ∃ s, (e₁ - e₂ - E).toNat = s := ⟨_, rfl⟩
  have moved : e₁ - e₂ = E + s := by omega
  have npos : (0 : ℚ) < m₂ := Nat.cast_pos.2 pos₂
  have value : ((m₁ * 2 ^ s : ℕ) : ℚ) / m₂ * 2 ^ E = m₁ * 2 ^ e₁ / (m₂ * 2 ^ e₂) := by
    have e₁_eq : e₁ = E + s + e₂ := by omega
    rw [e₁_eq, zpow_add₀ two_ne_zero, zpow_add₀ two_ne_zero, zpow_natCast]
    push_cast
    field_simp
  have cuts := cuts_quotient (m₁ * 2 ^ s) pos₂
  have high := cuts.high
  rw [mantissa_ofAccuracy] at high
  -- Unless the exponent is the least, so many places are made that the quotient is full.
  have full : 2 ^ 52 ≤ m₁ * 2 ^ s / m₂ ∨ E ≤ -1074 := by
    by_cases least : E ≤ -1074
    · exact .inr least
    · left
      rw [targetExponent_eq, totalExponent, totalExponent] at hE
      have short := log2_le_of_lt size
      exact quotient_full pos₁ pos₂ (by omega)
  have qpos : 0 < m₁ * 2 ^ s / m₂ := by
    rcases full with full | least
    · omega
    · rw [← value] at low
      have one : (1 : ℚ) ≤ ((m₁ * 2 ^ s : ℕ) : ℚ) / m₂ := by
        have unit : (2 : ℚ) ^ E ≤ 2 ^ (-1074 : ℤ) := (zpow_le_zpow_iff_right₀ one_lt_two).2 least
        have le := unit.trans low
        exact (le_mul_iff_one_le_left (zpow_pos two_pos E)).1 le
      have lt : (0 : ℚ) < (m₁ * 2 ^ s / m₂ : ℕ) := by linarith
      exact_mod_cast lt
  have made := madeFrom_roundWithAccuracy qpos cuts (le_targetExponent full)
  rw [value] at made
  rw [UnpackedFloat.div, divCore]
  simp only [hE, hs, Nat.shiftLeft_eq]
  exact made

theorem madeFrom_round {m : ℕ} (pos : 0 < m) (e : ℤ) :
    MadeFrom (m * 2 ^ e) (UnpackedFloat.round .binary64 .positive m e) := by
  obtain ⟨T, hT⟩ : ∃ T, Format.targetExponent .binary64 (totalExponent m e) = T := ⟨_, rfl⟩
  obtain ⟨k, hk⟩ : ∃ k, (e - T).toNat = k := ⟨_, rfl⟩
  have log : (m * 2 ^ k).log2 = m.log2 + k := by
    refine (Nat.log2_eq_iff (Nat.mul_ne_zero (Nat.ne_of_gt pos) (Nat.two_pow_pos k).ne')).2 ⟨?_, ?_⟩
    · rw [pow_add]
      exact Nat.mul_le_mul_right _ (Nat.log2_self_le (Nat.ne_of_gt pos))
    · rw [Nat.add_right_comm, pow_add]
      exact Nat.mul_lt_mul_of_pos_right Nat.lt_log2_self (Nat.two_pow_pos k)
  have same : totalExponent (m * 2 ^ k) (e - k) = totalExponent m e := by
    rw [totalExponent, totalExponent, log]
    push_cast
    ring
  have value : ((m * 2 ^ k : ℕ) : ℚ) * 2 ^ (e - k) = m * 2 ^ e := by
    rw [zpow_sub₀ two_ne_zero, zpow_natCast]
    push_cast
    field_simp
  have enough : e - k ≤ Format.targetExponent .binary64 (totalExponent (m * 2 ^ k) (e - k)) := by
    rw [same, hT]
    omega
  have made := madeFrom_roundWithAccuracy (Nat.mul_pos pos (Nat.two_pow_pos k))
    (cuts_exact (m * 2 ^ k)) enough
  rw [value] at made
  rw [UnpackedFloat.round, decreaseExponent, hT, hk, Nat.shiftLeft_eq]
  exact made

theorem normalize_natCast {n : ℕ} (pos : 0 < n) (e : ℤ) :
    UnpackedFloat.normalize .binary64 n e .positive =
      UnpackedFloat.round .binary64 .positive n e := by
  have gt : compare (n : ℤ) 0 = .gt := Int.compare_eq_gt.2 (by omega)
  rw [UnpackedFloat.normalize, gt]
  rfl

theorem add_finite {m₁ m₂ : ℕ} {e₁ e₂ : ℤ} (pos₁ : 0 < m₁) (pos₂ : 0 < m₂) :
    ∃ (n : ℕ) (e : ℤ), 0 < n ∧ (n : ℚ) * 2 ^ e = m₁ * 2 ^ e₁ + m₂ * 2 ^ e₂ ∧
      UnpackedFloat.add .binary64 (.finite .positive m₁ e₁ pos₁) (.finite .positive m₂ e₂ pos₂) =
        UnpackedFloat.round .binary64 .positive n e := by
  obtain ⟨e, he⟩ : ∃ e, min e₁ e₂ = e := ⟨_, rfl⟩
  obtain ⟨j, hj⟩ : ∃ j, (e₁ - e).toNat = j := ⟨_, rfl⟩
  obtain ⟨k, hk⟩ : ∃ k, (e₂ - e).toNat = k := ⟨_, rfl⟩
  have e₁_eq : e₁ = e + j := by omega
  have e₂_eq : e₂ = e + k := by omega
  have pos : 0 < m₁ * 2 ^ j + m₂ * 2 ^ k :=
    Nat.add_pos_left (Nat.mul_pos pos₁ (Nat.two_pow_pos j)) _
  refine ⟨m₁ * 2 ^ j + m₂ * 2 ^ k, e, pos, ?_, ?_⟩
  · rw [e₁_eq, e₂_eq, zpow_add₀ two_ne_zero, zpow_add₀ two_ne_zero, zpow_natCast, zpow_natCast]
    push_cast
    ring
  · rw [← normalize_natCast pos]
    simp only [UnpackedFloat.add, decreaseExponent, he, hj, hk, Nat.shiftLeft_eq, Sign.apply]
    rfl

theorem madeFrom_mul {m₁ m₂ : ℕ} {e₁ e₂ : ℤ} (pos₁ : 0 < m₁) (pos₂ : 0 < m₂)
    (fits₁ : Fits m₁ e₁) (fits₂ : Fits m₂ e₂) :
    MadeFrom (m₁ * 2 ^ e₁ * (m₂ * 2 ^ e₂)) (UnpackedFloat.mul .binary64
      (.finite .positive m₁ e₁ pos₁) (.finite .positive m₂ e₂ pos₂)) := by
  have pos : 0 < m₁ * m₂ := Nat.mul_pos pos₁ pos₂
  have full : 2 ^ 52 ≤ m₁ * m₂ ∨ e₁ + e₂ ≤ -1074 := by
    rcases fits₁.full with full | least
    · exact .inl (full.trans (Nat.le_mul_of_pos_right m₁ pos₂))
    · rcases fits₂.full with full | least'
      · exact .inl (full.trans (Nat.le_mul_of_pos_left m₂ pos₁))
      · exact .inr (by omega)
  have made := madeFrom_roundWithAccuracy pos (cuts_exact (m₁ * m₂)) (le_targetExponent full)
  have value : ((m₁ * m₂ : ℕ) : ℚ) * 2 ^ (e₁ + e₂) = m₁ * 2 ^ e₁ * (m₂ * 2 ^ e₂) := by
    rw [zpow_add₀ two_ne_zero]
    push_cast
    ring
  rw [value] at made
  exact made

/-- Packed mantissas are compared by their exponents first. -/
theorem fits_lt_iff {m₁ m₂ : ℕ} {e₁ e₂ : ℤ} (fits₁ : Fits m₁ e₁) (fits₂ : Fits m₂ e₂) :
    (m₁ : ℚ) * 2 ^ e₁ < m₂ * 2 ^ e₂ ↔ e₁ < e₂ ∨ e₁ = e₂ ∧ m₁ < m₂ := by
  have apart {m n : ℕ} {e f : ℤ} (hm : Fits m e) (hn : Fits n f) (lt : e < f) :
      (m : ℚ) * 2 ^ e < n * 2 ^ f := by
    have full : 2 ^ 52 ≤ n := hn.full.resolve_right (by have := hm.low; omega)
    calc (m : ℚ) * 2 ^ e < 2 ^ 53 * 2 ^ e := by
          refine mul_lt_mul_of_pos_right ?_ (zpow_pos two_pos e)
          exact_mod_cast hm.size
      _ = 2 ^ 52 * 2 ^ (e + 1) := by
          rw [zpow_add_one₀ two_ne_zero]
          ring
      _ ≤ n * 2 ^ f := by
          refine mul_le_mul ?_ ?_ (zpow_pos two_pos _).le (Nat.cast_nonneg n)
          · exact_mod_cast full
          · exact (zpow_le_zpow_iff_right₀ one_lt_two).2 lt
  rcases lt_trichotomy e₁ e₂ with lt | rfl | gt
  · exact iff_of_true (apart fits₁ fits₂ lt) (.inl lt)
  · rw [mul_lt_mul_iff_left₀ (zpow_pos two_pos e₁), Nat.cast_lt]
    omega
  · exact iff_of_false (not_lt.2 (apart fits₂ fits₁ gt).le) (by omega)

/-! ## Bounds -/

/-- The same up to one part in `2 ^ 52`. -/
structure Near (r c : ℚ) : Prop where
  low : r * (1 - 2 ^ (-52 : ℤ)) ≤ c
  high : c ≤ r * (1 + 2 ^ (-52 : ℤ))

/-- Rounding costs no more than that, unless the result is tiny. -/
theorem Rounds.near {r c : ℚ} (h : Rounds r c) (normal : 2 ^ (-1022 : ℤ) ≤ r) : Near r c := by
  have pos : 0 < r := (zpow_pos two_pos _).trans_le normal
  have low : -1022 ≤ Int.log 2 r := (Int.zpow_le_iff_le_log one_lt_two pos).1 normal
  have below : (2 : ℚ) ^ Int.log 2 r ≤ r := Int.zpow_log_le_self one_lt_two pos
  have above : r < (2 : ℚ) ^ (Int.log 2 r + 1) := Int.lt_zpow_succ_log_self one_lt_two r
  obtain ⟨t, ht⟩ : ∃ t, Int.log 2 r = t + 52 := ⟨Int.log 2 r - 52, by ring⟩
  rw [ht] at low below above
  rw [zpow_add₀ two_ne_zero] at below
  rw [add_assoc, zpow_add₀ two_ne_zero] at above
  have unit : (0 : ℚ) < 2 ^ t := zpow_pos two_pos t
  have step : (2 : ℚ) ^ t ≤ r * 2 ^ (-52 : ℤ) := by
    rw [zpow_neg, ← div_eq_mul_inv, le_div_iff₀ (zpow_pos two_pos _)]
    exact below
  have floor := Nat.floor_le (div_nonneg pos.le unit.le)
  have next := Nat.lt_floor_add_one (r / 2 ^ t)
  have size : ⌊r / 2 ^ t⌋₊ < 2 ^ 53 := by
    rw [Nat.floor_lt (div_nonneg pos.le unit.le), div_lt_iff₀ unit, mul_comm]
    exact_mod_cast above
  rw [le_div_iff₀ unit] at floor
  rw [div_lt_iff₀ unit] at next
  have down := (h _ ⟨⌊r / 2 ^ t⌋₊, t, size.le, by omega, rfl⟩).1 floor
  have up := (h _ ⟨⌊r / 2 ^ t⌋₊ + 1, t, size, by omega, rfl⟩).2
    (by rw [Nat.cast_add_one]; exact next.le)
  rw [Nat.cast_add_one] at up
  constructor <;> linarith

theorem onGrid_one_sub : OnGrid (1 - 2 ^ (-53 : ℤ)) :=
  ⟨2 ^ 53 - 1, -53, by norm_num, by norm_num, by norm_num⟩

/-- What is not too small to count makes a sum that the other summand is only a part of. -/
theorem Fits.part_le {m : ℕ} {e : ℤ} {b c : ℚ} (fits : Fits m e)
    (normal : 2 ^ (-1022 : ℤ) ≤ (m : ℚ) * 2 ^ e) (counts : (m : ℚ) * 2 ^ e ≤ 2 ^ 52 * b)
    (sum : Rounds (m * 2 ^ e + b) c) : (m : ℚ) * 2 ^ e / c ≤ 1 - 2 ^ (-53 : ℤ) := by
  have unit : (0 : ℚ) < 2 ^ e := zpow_pos two_pos e
  have full : 2 ^ 52 ≤ m := by
    by_contra short
    have least : e = -1074 := fits.full.resolve_left short
    have small : (m : ℚ) < 2 ^ 52 := by exact_mod_cast Nat.lt_of_not_le short
    rw [least] at normal
    rw [show (-1022 : ℤ) = (52 : ℕ) + -1074 from rfl, zpow_add₀ two_ne_zero, zpow_natCast] at normal
    exact absurd (le_of_mul_le_mul_right normal (zpow_pos two_pos _)) (not_le.2 small)
  have full : (2 : ℚ) ^ 52 ≤ m := by exact_mod_cast full
  have size : (m : ℚ) + 1 ≤ 2 ^ 53 := by exact_mod_cast fits.size
  have step : (2 : ℚ) ^ e ≤ b := by nlinarith
  have next : ((m : ℚ) + 1) * 2 ^ e ≤ c := by
    have above := (sum _ ⟨m + 1, e, fits.size, fits.low, rfl⟩).1
    rw [Nat.cast_add_one] at above
    exact above (by linarith)
  have pos : 0 < c := (mul_pos (by positivity) unit).trans_le next
  rw [div_le_iff₀ pos]
  calc (m : ℚ) * 2 ^ e ≤ (1 - 2 ^ (-53 : ℤ)) * ((m + 1) * 2 ^ e) := by
        rw [← mul_assoc]
        refine mul_le_mul_of_nonneg_right ?_ unit.le
        norm_num at size ⊢
        linarith
    _ ≤ (1 - 2 ^ (-53 : ℤ)) * c := mul_le_mul_of_nonneg_left next (by norm_num)

end PaneLayout.Double
