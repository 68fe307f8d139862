import PaneLayout.Proofs.Rounding
import PaneLayout.Scalar.Double

set_option autoImplicit false

/-!
# Doubles as rationals

A positive double stands for a rational. Sums, products and quotients of positive doubles round the
exact result, unless it is out of range, and doubles compare as the rationals do.
-/

namespace PaneLayout.Double

open Float.Model Float.Model.UnpackedFloat

/-! ## Packing -/

variable {spec : Format}

theorem unpack_normal (e : BitVec spec.exponentBits) (m : BitVec spec.mantissaBitsWithoutImplicit)
    (special : ¬ e = -1#_) (zero : ¬ e = 0#_) :
    UnpackedFloat.unpack spec (packComponents spec .positive e m) =
      .finite .positive (1#1 ++ m).toNat
        ((e.toNat : Int) - (spec.exponentBias + spec.mantissaBitsWithoutImplicit)) (by simp) := by
  simp only [UnpackedFloat.unpack, unpackExponent_packComponents, unpackMantissa_packComponents,
    unpackSign_packComponents, Sign.ofBitVec_toBitVec, if_neg special, if_neg zero]

theorem unpack_subnormal (m : BitVec spec.mantissaBitsWithoutImplicit) (some : ¬ m = 0#_) :
    UnpackedFloat.unpack spec (packComponents spec .positive 0#_ m) = .finite .positive m.toNat
      (0 - (spec.exponentBias + spec.mantissaBitsWithoutImplicit : Int) + 1)
      (by simpa [BitVec.toNat_pos, BitVec.pos_iff_ne_zero]) := by
  have special : ¬ 0#(spec.exponentBits) = -1#_ := by
    rw [BitVec.zero_eq_neg_one_iff]
    exact Nat.ne_of_gt spec.he
  simp only [UnpackedFloat.unpack, unpackExponent_packComponents, unpackMantissa_packComponents,
    unpackSign_packComponents, Sign.ofBitVec_toBitVec, if_neg special, dif_neg some, if_true]
  rfl

theorem pack_finite {m : ℕ} {e : ℤ} (pos : 0 < m)
    (finite : ¬ 2 ^ spec.exponentBits ≤
      (e + spec.exponentBias + spec.mantissaBitsWithoutImplicit).toNat + 1) :
    UnpackedFloat.pack spec (.finite .positive m e pos) =
      packComponents spec .positive
        (if m.log2 + 1 = spec.mantissaBits then
          BitVec.ofNat _ (e + spec.exponentBias + spec.mantissaBitsWithoutImplicit).toNat else 0#_)
        (BitVec.ofNat _ m) := by
  simp only [UnpackedFloat.pack, if_neg finite]
  split <;> rfl

theorem finite_congr {s : Sign} {m n : ℕ} {e f : ℤ} {hm : 0 < m} {hn : 0 < n} (same : m = n)
    (same' : e = f) : UnpackedFloat.finite s m e hm = .finite s n f hn := by
  subst same same'
  rfl

theorem toNat_implicit {m : ℕ} (normal : 2 ^ 52 ≤ m) (size : m < 2 ^ 53) :
    (1#1 ++ BitVec.ofNat 52 m).toNat = m := by
  have rest : m % 2 ^ 52 < 2 ^ 52 := Nat.mod_lt m (by norm_num)
  have join := Nat.two_pow_add_eq_or_of_lt rest 1
  rw [BitVec.toNat_append, BitVec.toNat_ofNat, BitVec.toNat_ofNat, Nat.shiftLeft_eq]
  change 1 * 2 ^ 52 ||| m % 2 ^ 52 = m
  rw [Nat.mul_comm, ← join]
  omega

theorem pack_binary64 {m : ℕ} {e : ℤ} (pos : 0 < m) (high : e ≤ 971) :
    UnpackedFloat.pack .binary64 (.finite .positive m e pos) =
      packComponents .binary64 .positive
        (if m.log2 + 1 = 53 then BitVec.ofNat 11 (e + 1075).toNat else 0#11)
        (BitVec.ofNat 52 m) := by
  have biased : (e + (Format.binary64).exponentBias + (52 : ℕ)).toNat = (e + 1075).toNat := by
    change (e + 1023 + 52).toNat = _
    omega
  have finite : ¬ 2 ^ 11 ≤ (e + (Format.binary64).exponentBias + (52 : ℕ)).toNat + 1 := by omega
  rw [pack_finite pos finite, biased]
  rfl

theorem unpack_pack_normal {m : ℕ} {e : ℤ} (pos : 0 < m) (normal : 2 ^ 52 ≤ m) (size : m < 2 ^ 53)
    (low : -1074 ≤ e) (high : e ≤ 971) :
    UnpackedFloat.unpack .binary64 (UnpackedFloat.pack .binary64 (.finite .positive m e pos)) =
      .finite .positive m e pos := by
  have log : m.log2 + 1 = 53 :=
    congrArg (· + 1) ((Nat.log2_eq_iff (Nat.ne_of_gt pos)).2 ⟨normal, size⟩)
  have exponent : (BitVec.ofNat 11 (e + 1075).toNat).toNat = (e + 1075).toNat := by
    rw [BitVec.toNat_ofNat]
    exact Nat.mod_eq_of_lt (by omega)
  rw [pack_binary64 pos high, if_pos log, unpack_normal]
  · refine finite_congr (toNat_implicit normal size) ?_
    rw [exponent]
    change ((e + 1075).toNat : ℤ) - 1075 = e
    omega
  · intro all
    have top := congrArg BitVec.toNat all
    rw [exponent] at top
    change (e + 1075).toNat = 2047 at top
    omega
  · intro none
    have bottom := congrArg BitVec.toNat none
    rw [exponent] at bottom
    change (e + 1075).toNat = 0 at bottom
    omega

theorem unpack_pack_subnormal {m : ℕ} (pos : 0 < m) (small : m < 2 ^ 52) :
    UnpackedFloat.unpack .binary64
      (UnpackedFloat.pack .binary64 (.finite .positive m (-1074) pos)) =
        .finite .positive m (-1074) pos := by
  have log : ¬ m.log2 + 1 = 53 := by
    have short := (Nat.log2_lt (Nat.ne_of_gt pos)).2 small
    omega
  have mantissa : (BitVec.ofNat 52 m).toNat = m := by
    rw [BitVec.toNat_ofNat]
    exact Nat.mod_eq_of_lt small
  rw [pack_binary64 pos (by norm_num), if_neg log, unpack_subnormal]
  · exact finite_congr mantissa rfl
  · intro none
    have zero := congrArg BitVec.toNat none
    rw [mantissa] at zero
    exact Nat.ne_of_gt pos zero

/-- What fits is read back as it was packed. -/
theorem unpack_pack {m : ℕ} {e : ℤ} (pos : 0 < m) (fits : Fits m e) (high : e ≤ 971) :
    UnpackedFloat.unpack .binary64 (UnpackedFloat.pack .binary64 (.finite .positive m e pos)) =
      .finite .positive m e pos := by
  rcases Nat.lt_or_ge m (2 ^ 52) with small | normal
  · obtain rfl : e = -1074 := fits.full.resolve_left (Nat.not_le.2 small)
    exact unpack_pack_subnormal pos small
  · exact unpack_pack_normal pos normal fits.size fits.low high

theorem fits_of_unpack {b : BitVec (Format.binary64).numBits} {s : Sign} {m : ℕ} {e : ℤ}
    {pos : 0 < m} (h : UnpackedFloat.unpack .binary64 b = .finite s m e pos) :
    Fits m e ∧ e ≤ 971 := by
  unfold UnpackedFloat.unpack at h
  dsimp only at h
  split at h
  · split at h <;> cases h
  · split at h
    · split at h
      · cases h
      · next zero _ =>
        obtain ⟨-, hm, he⟩ := UnpackedFloat.finite.inj h
        rw [zero] at he
        have e_eq : e = -1074 := he.symm
        have m_lt : m < 2 ^ 52 := hm ▸ (unpackMantissa b).isLt
        exact ⟨⟨by omega, by omega, .inr e_eq⟩, by omega⟩
    · next special zero =>
      obtain ⟨-, hm, he⟩ := UnpackedFloat.finite.inj h
      have m_lt : m < 2 ^ 53 := hm ▸ (1#1 ++ unpackMantissa b).isLt
      have e_eq : (unpackExponent b).toNat - (1075 : ℤ) = e := he
      have top : (unpackExponent b).toNat < 2048 := (unpackExponent b).isLt
      have e_ne : (unpackExponent b).toNat ≠ 2047 := fun all => special (BitVec.eq_of_toNat_eq all)
      have e_pos : (unpackExponent b).toNat ≠ 0 := fun none => zero (BitVec.eq_of_toNat_eq none)
      have m_ge : 2 ^ 52 ≤ m := by
        rw [← hm, BitVec.toNat_append]
        exact Nat.left_le_or
      exact ⟨⟨m_lt, by omega, .inl m_ge⟩, by omega⟩

/-! ## Values -/

/-- The double is positive and stands for the rational. -/
def HasValue (x : Float) (a : ℚ) : Prop :=
  ∃ m e pos, x.toModel.unpack = .finite .positive m e pos ∧ a = m * 2 ^ e

/-- The rational that a finite double stands for. -/
def value (x : Float) : ℚ :=
  match x.toModel.unpack with
  | .finite .positive m e _ => m * 2 ^ e
  | .finite .negative m e _ => -(m * 2 ^ e)
  | _ => 0

section
variable {x y : Float} {a b : ℚ}

theorem HasValue.value_eq (h : HasValue x a) : value x = a := by
  obtain ⟨m, e, pos, finite, rfl⟩ := h
  rw [value, finite]

/-- What can be a weight stands for a positive rational. -/
theorem hasValue_of_isPositive (h : Scalar.isPositive x = true) : HasValue x (value x) := by
  obtain ⟨finite, pos⟩ := (Bool.and_eq_true _ _).mp h
  change x.toModel.unpack.isFinite = true at finite
  change decide (decide ((0 : Float).toModel.unpack.lt x.toModel.unpack = true) = true) = true
    at pos
  have zero : (0 : Float).toModel.unpack = .zero .positive := rfl
  rw [zero] at pos
  unfold value HasValue
  cases unpacked : x.toModel.unpack with
  | notANumber | infinity s =>
    rw [unpacked] at finite
    cases finite
  | zero s =>
    rw [unpacked] at pos
    cases pos
  | finite s m e some =>
    cases s with
    | positive => exact ⟨m, e, some, rfl, rfl⟩
    | negative =>
      rw [unpacked] at pos
      cases pos

theorem HasValue.fits (h : HasValue x a) : ∃ m e pos,
    x.toModel.unpack = .finite .positive m e pos ∧ Fits m e ∧ a = m * 2 ^ e := by
  obtain ⟨m, e, pos, finite, value⟩ := h
  exact ⟨m, e, pos, finite, (fits_of_unpack finite).1, value⟩

theorem HasValue.pos (h : HasValue x a) : 0 < a := by
  obtain ⟨m, e, pos, -, rfl⟩ := h
  exact mul_pos (Nat.cast_pos.2 pos) (zpow_pos two_pos e)

theorem HasValue.onGrid (h : HasValue x a) : OnGrid a := by
  obtain ⟨m, e, pos, -, fits, value⟩ := h.fits
  exact ⟨m, e, fits.size.le, fits.low, value⟩

theorem onGrid_zpow {e : ℤ} (low : -1074 ≤ e) : OnGrid (2 ^ e) :=
  ⟨1, e, by norm_num, low, by rw [Nat.cast_one, one_mul]⟩

/-- Neither so small that it may round to zero nor so great that it may round to infinity. -/
structure InRange (r : ℚ) : Prop where
  low : 2 ^ (-1074 : ℤ) ≤ r
  high : r ≤ 2 ^ (1023 : ℤ)

theorem inRange_of_le {r : ℚ} {j k : ℤ} (low : 2 ^ j ≤ r) (high : r ≤ 2 ^ k) (hj : -1074 ≤ j)
    (hk : k ≤ 1023) : InRange r :=
  ⟨((zpow_le_zpow_iff_right₀ one_lt_two).2 hj).trans low,
    high.trans ((zpow_le_zpow_iff_right₀ one_lt_two).2 hk)⟩

/-- What an operation makes of a number that is not out of range. -/
theorem hasValue_pack {u : UnpackedFloat} {r : ℚ} (made : MadeFrom r u) (range : InRange r) :
    ∃ c, HasValue (.ofModel (.pack u)) c ∧ Rounds r c := by
  obtain ⟨N, t, fits, rounds, rfl⟩ := made
  have above := (rounds _ (onGrid_zpow (le_refl (-1074)))).1 range.low
  have below := (rounds _ (onGrid_zpow (by norm_num : (-1074 : ℤ) ≤ 1023))).2 range.high
  have pos : N ≠ 0 := by
    rintro rfl
    rw [Nat.cast_zero, zero_mul] at above
    exact absurd above (not_le.2 (zpow_pos two_pos _))
  have small : t ≤ 971 := by
    rcases fits.full with full | least
    · have le : (2 : ℚ) ^ (52 + t) ≤ 2 ^ (1023 : ℤ) := by
        refine le_trans ?_ below
        rw [zpow_add₀ two_ne_zero]
        refine mul_le_mul_of_nonneg_right ?_ (zpow_pos two_pos t).le
        exact_mod_cast full
      have le := (zpow_le_zpow_iff_right₀ one_lt_two).1 le
      omega
    · omega
  refine ⟨N * 2 ^ t, ⟨N, t, Nat.pos_of_ne_zero pos, ?_, rfl⟩, rounds⟩
  rw [ofMantissa, dif_neg pos]
  exact unpack_pack (Nat.pos_of_ne_zero pos) fits small

/-! ## Operations -/

theorem HasValue.div (hx : HasValue x a) (hy : HasValue y b) (range : InRange (a / b)) :
    ∃ c, HasValue (x / y) c ∧ Rounds (a / b) c := by
  obtain ⟨m₁, e₁, pos₁, finite₁, fits₁, rfl⟩ := hx.fits
  obtain ⟨m₂, e₂, pos₂, finite₂, -, rfl⟩ := hy.fits
  have made := madeFrom_div pos₁ pos₂ fits₁.size range.low
  rw [← finite₁, ← finite₂] at made
  exact hasValue_pack made range

theorem HasValue.add (hx : HasValue x a) (hy : HasValue y b) (high : a + b ≤ 2 ^ (1023 : ℤ)) :
    ∃ c, HasValue (x + y) c ∧ Rounds (a + b) c := by
  have low : 2 ^ (-1074 : ℤ) ≤ a + b := by
    obtain ⟨m, e, pos, -, fits, rfl⟩ := hx.fits
    have unit : (2 : ℚ) ^ (-1074 : ℤ) ≤ 2 ^ e := (zpow_le_zpow_iff_right₀ one_lt_two).2 fits.low
    have one : (1 : ℚ) ≤ m := by exact_mod_cast pos
    have := hy.pos
    nlinarith [zpow_pos (two_pos : (0 : ℚ) < 2) e]
  obtain ⟨m₁, e₁, pos₁, finite₁, rfl⟩ := hx
  obtain ⟨m₂, e₂, pos₂, finite₂, rfl⟩ := hy
  obtain ⟨n, e, pos, value, sum⟩ := add_finite pos₁ pos₂
  have made := madeFrom_round pos e
  rw [value, ← sum, ← finite₁, ← finite₂] at made
  exact hasValue_pack made ⟨low, high⟩

theorem HasValue.mul (hx : HasValue x a) (hy : HasValue y b) (range : InRange (a * b)) :
    ∃ c, HasValue (x * y) c ∧ Rounds (a * b) c := by
  obtain ⟨m₁, e₁, pos₁, finite₁, fits₁, rfl⟩ := hx.fits
  obtain ⟨m₂, e₂, pos₂, finite₂, fits₂, rfl⟩ := hy.fits
  have made := madeFrom_mul pos₁ pos₂ fits₁ fits₂
  rw [← finite₁, ← finite₂] at made
  exact hasValue_pack made range

/-- Adding to zero changes nothing. -/
theorem HasValue.zero_add (hx : HasValue x a) : HasValue (0 + x) a := by
  obtain ⟨m, e, pos, finite, rfl⟩ := hx
  have zero : (0 : Float).toModel.unpack = .zero .positive := rfl
  obtain ⟨fits, high⟩ := fits_of_unpack finite
  refine ⟨m, e, pos, ?_, rfl⟩
  change UnpackedFloat.unpack .binary64 (UnpackedFloat.pack .binary64
    (UnpackedFloat.add .binary64 (0 : Float).toModel.unpack x.toModel.unpack)) = _
  rw [zero, finite]
  exact unpack_pack pos fits high

/-! ## Natural numbers -/

theorem hasValue_one : HasValue 1 1 := ⟨2 ^ 52, -52, by norm_num, rfl, by norm_num⟩

theorem inRange_natCast {n : ℕ} (pos : 0 < n) (small : n ≤ 2 ^ 53) : InRange n := by
  refine inRange_of_le (j := 0) (k := 53) ?_ ?_ (by norm_num) (by norm_num)
  · rw [zpow_zero]
    exact_mod_cast pos
  · exact_mod_cast small

theorem hasValue_toFloat {n : UInt64} (pos : 0 < n.toNat) (small : n.toNat ≤ 2 ^ 53) :
    HasValue n.toFloat n.toNat := by
  have made := madeFrom_round pos 0
  rw [zpow_zero, mul_one, ← normalize_natCast pos] at made
  obtain ⟨c, hc, rounds⟩ := hasValue_pack made (inRange_natCast pos small)
  rw [rounds.eq (onGrid_natCast small)] at hc
  exact hc

theorem ofNat_eq {n : ℕ} (small : n < 2 ^ 53) :
    Float.ofNat n = n.toUInt64.toFloat * Float.ofBits 0x3FF0000000000000 := by
  change Float.ofScientific n false 0 = _
  rw [Float.ofScientific, dif_pos ⟨small, by decide⟩]
  rfl

/-- Up to `2 ^ 53` the natural numbers are exact. -/
theorem hasValue_natCast {n : ℕ} (pos : 0 < n) (small : n < 2 ^ 53) :
    HasValue (Float.ofNat n) n := by
  have toNat : n.toUInt64.toNat = n := by
    rw [Nat.toUInt64, UInt64.toNat_ofNat']
    exact Nat.mod_eq_of_lt (by omega)
  have whole := hasValue_toFloat (n := n.toUInt64) (by omega) (by omega)
  have unit : HasValue (Float.ofBits 0x3FF0000000000000) 1 :=
    ⟨2 ^ 52, -52, by norm_num, rfl, by norm_num⟩
  obtain ⟨c, hc, rounds⟩ :=
    whole.mul unit (by rw [mul_one, toNat]; exact inRange_natCast pos small.le)
  rw [mul_one, toNat] at rounds
  rw [rounds.eq (onGrid_natCast small.le), ← ofNat_eq small] at hc
  exact hc

/-! ## Order -/

theorem HasValue.lt_iff (hx : HasValue x a) (hy : HasValue y b) : x < y ↔ a < b := by
  obtain ⟨m₁, e₁, pos₁, finite₁, fits₁, rfl⟩ := hx.fits
  obtain ⟨m₂, e₂, pos₂, finite₂, fits₂, rfl⟩ := hy.fits
  have compared : x < y ↔ some ((compare e₁ e₂).then (compare m₁ m₂)) = some .lt := by
    have same : x < y ↔ (x.toModel.unpack.lt y.toModel.unpack) = true := by
      change decide (x.toModel < y.toModel) = true ↔ _
      exact decide_eq_true_iff
    rw [same, finite₁, finite₂]
    exact beq_iff_eq
  rw [compared, fits_lt_iff fits₁ fits₂, Option.some_inj, Ordering.then_eq_lt, Int.compare_eq_lt,
    Nat.compare_eq_lt, Int.compare_eq_eq]

theorem HasValue.zero_lt (hx : HasValue x a) : 0 < x := by
  obtain ⟨m, e, pos, finite, -⟩ := hx
  change decide ((0 : Float).toModel < x.toModel) = true
  apply decide_eq_true
  change ((0 : Float).toModel.unpack.lt x.toModel.unpack) = true
  have zero : (0 : Float).toModel.unpack = .zero .positive := rfl
  rw [zero, finite]
  rfl

end

end PaneLayout.Double
