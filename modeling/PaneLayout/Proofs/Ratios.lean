import PaneLayout.Proofs.Doubles
import PaneLayout.Proofs.Encoding
import PaneLayout.Proofs.Proportions

set_option autoImplicit false

/-!
# Ratios in doubles

A page is planned in doubles, and there a ratio may round to all of a split or to nothing. It stays
between them as long as no weight falls off too steeply: every weight but the last of its split must
still count next to one that follows, and none may be so small that its share is lost.
-/

namespace PaneLayout

namespace Double

/-! ## Sums and parts -/

section
variable {x y : Float} {a b : ℚ}

/-- A sum is no smaller than either summand, and no whole number is passed by rounding. -/
theorem HasValue.add_le (hx : HasValue x a) (hy : HasValue y b) {n : ℕ} (high : a + b ≤ n)
    (small : n ≤ 2 ^ 53) :
    ∃ c, HasValue (x + y) c ∧ Rounds (a + b) c ∧ a ≤ c ∧ b ≤ c ∧ c ≤ n := by
  have range : a + b ≤ 2 ^ (1023 : ℤ) := by
    have le : (n : ℚ) ≤ 2 ^ 53 := by exact_mod_cast small
    rw [← zpow_natCast] at le
    exact high.trans (le.trans ((zpow_le_zpow_iff_right₀ one_lt_two).2 (by norm_num)))
  obtain ⟨c, hc, rounds⟩ := hx.add hy range
  refine ⟨c, hc, rounds, ?_, ?_, (rounds n (onGrid_natCast small)).2 high⟩
  · exact (rounds a hx.onGrid).1 (le_add_of_nonneg_right hy.pos.le)
  · exact (rounds b hy.onGrid).1 (le_add_of_nonneg_left hx.pos.le)

/-- A part of a whole is found up to one part in `2 ^ 52`, and rounding keeps it a part. -/
theorem HasValue.div_part (hx : HasValue x a) (hy : HasValue y b) {j : ℤ} (hj : -1022 ≤ j)
    (low : 2 ^ j * b ≤ a) (high : a ≤ b) :
    ∃ c, HasValue (x / y) c ∧ 2 ^ j ≤ c ∧ c ≤ 1 ∧ Near (a / b) c := by
  rw [← le_div_iff₀ hy.pos] at low
  rw [← div_le_one hy.pos] at high
  have normal := ((zpow_le_zpow_iff_right₀ (one_lt_two (α := ℚ))).2 hj).trans low
  have top : a / b ≤ 2 ^ (0 : ℤ) := by
    rw [zpow_zero]
    exact high
  have one : OnGrid 1 := by
    rw [← Nat.cast_one]
    exact onGrid_natCast (by norm_num)
  obtain ⟨c, hc, rounds⟩ := hx.div hy (inRange_of_le low top (by omega) (by norm_num))
  exact ⟨c, hc, (rounds _ (onGrid_zpow (by omega))).1 low, (rounds 1 one).2 high,
    rounds.near normal⟩

end

theorem foldl_add {xs : List Float} {s : Float} {S : ℚ} {k : ℕ} (hs : HasValue s S) (le : S ≤ k)
    (units : ∀ x ∈ xs, HasValue x (value x) ∧ value x ≤ 1) (small : k + xs.length ≤ 2 ^ 53) :
    ∃ T, HasValue (xs.foldl (· + ·) s) T ∧ T ≤ (k + xs.length : ℕ) ∧ S ≤ T ∧
      ∀ x ∈ xs, value x ≤ T := by
  induction xs generalizing s S k with
  | nil => exact ⟨S, hs, le, le_rfl, List.forall_mem_nil _⟩
  | cons x xs ih =>
    obtain ⟨⟨hx, one⟩, units⟩ := List.forall_mem_cons.1 units
    rw [List.length_cons, Nat.add_comm xs.length, ← Nat.add_assoc] at small ⊢
    have high : S + value x ≤ (k + 1 : ℕ) := by
      rw [Nat.cast_add_one]
      exact add_le_add le one
    obtain ⟨c, hc, -, left, right, whole⟩ := hs.add_le hx high (by omega)
    obtain ⟨T, hT, top, more, all⟩ := ih hc whole units small
    exact ⟨T, hT, top, left.trans more, List.forall_mem_cons.2 ⟨right.trans more, all⟩⟩

theorem sum_units {xs : List Float} (some : xs ≠ [])
    (units : ∀ x ∈ xs, HasValue x (value x) ∧ value x ≤ 1) (small : xs.length ≤ 2 ^ 53) :
    ∃ T, HasValue (Scalar.sum xs) T ∧ T ≤ xs.length ∧ ∀ x ∈ xs, value x ≤ T := by
  cases xs with
  | nil => exact absurd rfl some
  | cons x xs =>
    obtain ⟨⟨hx, one⟩, units⟩ := List.forall_mem_cons.1 units
    rw [List.length_cons, Nat.add_comm] at small ⊢
    have le : value x ≤ (1 : ℕ) := by
      rw [Nat.cast_one]
      exact one
    obtain ⟨T, hT, top, first, all⟩ := foldl_add hx.zero_add le units small
    exact ⟨T, hT, top, List.forall_mem_cons.2 ⟨first, all⟩⟩

/-! ## The greatest weight -/

theorem lt_eq_true_iff {x y : Float} {a b : ℚ} (hx : HasValue x a) (hy : HasValue y b) :
    Scalar.lt x y = true ↔ a < b :=
  decide_eq_true_iff.trans (hx.lt_iff hy)

theorem foldl_greatest {xs : List Float} {m : Float} (hm : HasValue m (value m))
    (pos : ∀ x ∈ xs, HasValue x (value x)) :
    let M := xs.foldl (fun m x => if Scalar.lt m x then x else m) m
    M ∈ m :: xs ∧ ∀ x ∈ m :: xs, value x ≤ value M := by
  induction xs generalizing m with
  | nil => exact ⟨List.mem_singleton_self m, List.forall_mem_singleton.2 le_rfl⟩
  | cons x xs ih =>
    obtain ⟨hx, pos⟩ := List.forall_mem_cons.1 pos
    rw [List.foldl_cons]
    split
    · next less =>
      obtain ⟨mem, greatest⟩ := ih hx pos
      have first := ((lt_eq_true_iff hm hx).1 less).le.trans (greatest x List.mem_cons_self)
      exact ⟨List.mem_cons_of_mem m mem, List.forall_mem_cons.2 ⟨first, greatest⟩⟩
    · next less =>
      rw [lt_eq_true_iff hm hx, not_lt] at less
      obtain ⟨mem, greatest⟩ := ih hm pos
      obtain ⟨first, rest⟩ := List.forall_mem_cons.1 greatest
      refine ⟨?_, List.forall_mem_cons.2 ⟨first, List.forall_mem_cons.2 ⟨less.trans first, rest⟩⟩⟩
      rcases List.mem_cons.1 mem with same | later
      · exact List.mem_cons.2 (.inl same)
      · exact List.mem_cons_of_mem m (List.mem_cons_of_mem x later)

theorem top_greatest {xs : List Float} (pos : ∀ x ∈ xs, HasValue x (value x)) (some : xs ≠ []) :
    Scalar.top xs ∈ xs ∧ ∀ x ∈ xs, value x ≤ value (Scalar.top xs) := by
  cases xs with
  | nil => exact absurd rfl some
  | cons x xs =>
    obtain ⟨hx, pos⟩ := List.forall_mem_cons.1 pos
    have first : Scalar.lt Scalar.zero x = true := decide_eq_true hx.zero_lt
    rw [Scalar.top, List.foldl_cons, if_pos first]
    exact foldl_greatest hx pos

/-! ## Shares -/

/-- One share of a split, not so small that its precision is lost. -/
structure IsShare (x : Float) : Prop where
  hasValue : HasValue x (value x)
  normal : 2 ^ (-1022 : ℤ) ≤ value x
  le_one : value x ≤ 1

/-- Every number but the last is at most `2 ^ k` times one that follows. -/
def Tapers (k : ℕ) : List Float → Prop
  | [] => True
  | x :: xs => (xs ≠ [] → ∃ y ∈ xs, value x ≤ 2 ^ k * value y) ∧ Tapers k xs

theorem tapers_map {j k : ℕ} {f : Float → Float} {xs : List Float} (h : Tapers j xs)
    (keeps : ∀ x ∈ xs, ∀ y ∈ xs, value x ≤ 2 ^ j * value y →
      value (f x) ≤ 2 ^ k * value (f y)) : Tapers k (xs.map f) := by
  induction xs with
  | nil => trivial
  | cons x xs ih =>
    obtain ⟨here, rest⟩ := h
    refine ⟨fun some => ?_, ih rest fun y hy z hz => ?_⟩
    · obtain ⟨y, hy, le⟩ := here fun none => some (by rw [none, List.map_nil])
      refine ⟨f y, List.mem_map_of_mem hy, ?_⟩
      exact keeps x List.mem_cons_self y (List.mem_cons_of_mem x hy) le
    · exact keeps y (List.mem_cons_of_mem x hy) z (List.mem_cons_of_mem x hz)

theorem tapers_replicate (k n : ℕ) {x : Float} (nonneg : 0 ≤ value x) :
    Tapers k (List.replicate n x) := by
  induction n with
  | zero => trivial
  | succ n ih =>
    rw [List.replicate_succ]
    refine ⟨fun some => ⟨x, ?_, ?_⟩, ih⟩
    · exact List.mem_replicate.2 ⟨fun none => some (by rw [none, List.replicate_zero]), rfl⟩
    · exact le_mul_of_one_le_left nonneg (one_le_pow₀ one_le_two)

theorem isShare_of_hasValue {x : Float} {a : ℚ} (h : HasValue x a) (normal : 2 ^ (-1022 : ℤ) ≤ a)
    (le_one : a ≤ 1) : IsShare x := by
  obtain rfl := h.value_eq
  exact ⟨h, normal, le_one⟩

theorem isShare_even {n : ℕ} (pos : 0 < n) (few : n ≤ 2 ^ 52) :
    IsShare (Scalar.one / Scalar.ofNat n) := by
  have few' : (n : ℚ) ≤ 2 ^ 52 := by exact_mod_cast few
  have low : 2 ^ (-52 : ℤ) * (n : ℚ) ≤ 1 := by
    rw [zpow_neg, inv_mul_le_iff₀ (zpow_pos two_pos _), mul_one]
    exact few'
  obtain ⟨c, hc, normal, le_one, -⟩ := hasValue_one.div_part
    (hasValue_natCast pos (by omega)) (by norm_num) low (by exact_mod_cast pos)
  refine isShare_of_hasValue hc (le_trans ?_ normal) le_one
  exact (zpow_le_zpow_iff_right₀ one_lt_two).2 (by norm_num)

/-- Weights that doubles can tell the parts of: all within `2 ^ 970` of each other, and every one
but the last at most `2 ^ 51` times one that follows. -/
structure Graded (ws : List Float) : Prop where
  spread : ∀ v ∈ ws, ∀ w ∈ ws, value v ≤ 2 ^ 970 * value w
  tapers : Tapers 51 ws

section
variable {ws : List Float}

theorem scaled_near (pos : ∀ w ∈ ws, HasValue w (value w)) (some : ws ≠ [])
    (spread : ∀ v ∈ ws, ∀ w ∈ ws, value v ≤ 2 ^ 970 * value w) :
    ∀ w ∈ ws, ∃ a, HasValue (w / Scalar.top ws) a ∧ 2 ^ (-970 : ℤ) ≤ a ∧ a ≤ 1 ∧
      Near (value w / value (Scalar.top ws)) a := by
  obtain ⟨mem, greatest⟩ := top_greatest pos some
  intro w hw
  refine (pos w hw).div_part (pos _ mem) (by norm_num) ?_ (greatest w hw)
  rw [zpow_neg, inv_mul_le_iff₀ (zpow_pos two_pos _)]
  exact spread _ mem w hw

/-- Scaling and sharing out round twice, so each share is in proportion up to two parts in
`2 ^ 52`. -/
theorem share_proportional (pos : ∀ w ∈ ws, HasValue w (value w)) (some : ws ≠ [])
    (few : ws.length ≤ 2 ^ 52) (spread : ∀ v ∈ ws, ∀ w ∈ ws, value v ≤ 2 ^ 970 * value w) :
    let top := Scalar.top ws
    let total := Scalar.sum (ws.map (· / top))
    ∃ p, 0 < p ∧ ∀ w ∈ ws, IsShare (w / top / total) ∧
      p * value w * (1 - 2 ^ (-52 : ℤ)) ^ 2 ≤ value (w / top / total) ∧
      value (w / top / total) ≤ p * value w * (1 + 2 ^ (-52 : ℤ)) ^ 2 := by
  intro top total
  have htop := (pos top (top_greatest pos some).1).pos
  have scaled := scaled_near pos some spread
  have units : ∀ x ∈ ws.map (· / top), HasValue x (value x) ∧ value x ≤ 1 := by
    refine List.forall_mem_map.2 fun w hw => ?_
    obtain ⟨a, ha, -, le_one, -⟩ := scaled w hw
    obtain rfl := ha.value_eq
    exact ⟨ha, le_one⟩
  obtain ⟨T, hT, most, all⟩ := sum_units (by simpa using some) units
    (by rw [List.length_map]; omega)
  rw [List.length_map] at most
  have most : T ≤ 2 ^ (52 : ℤ) := most.trans (by exact_mod_cast few)
  have Tpos := hT.pos
  refine ⟨1 / (value top * T), by positivity, fun w hw => ?_⟩
  obtain ⟨a, ha, low, -, near⟩ := scaled w hw
  have part := all (w / top) (List.mem_map_of_mem hw)
  rw [ha.value_eq] at part
  have large : 2 ^ (-1022 : ℤ) * T ≤ a := by
    refine le_trans (mul_le_mul_of_nonneg_left most (zpow_pos two_pos _).le) ?_
    rw [← zpow_add₀ two_ne_zero]
    exact low
  obtain ⟨c, hc, normal, le_one, near'⟩ := ha.div_part hT le_rfl large part
  rw [hc.value_eq]
  refine ⟨isShare_of_hasValue hc normal le_one, ?_, ?_⟩
  · calc 1 / (value top * T) * value w * (1 - 2 ^ (-52 : ℤ)) ^ 2
        = value w / value top * (1 - 2 ^ (-52 : ℤ)) / T * (1 - 2 ^ (-52 : ℤ)) := by
          field_simp
      _ ≤ a / T * (1 - 2 ^ (-52 : ℤ)) :=
          mul_le_mul_of_nonneg_right (div_le_div_of_nonneg_right near.low Tpos.le) (by norm_num)
      _ ≤ c := near'.low
  · calc c ≤ a / T * (1 + 2 ^ (-52 : ℤ)) := near'.high
      _ ≤ value w / value top * (1 + 2 ^ (-52 : ℤ)) / T * (1 + 2 ^ (-52 : ℤ)) :=
          mul_le_mul_of_nonneg_right (div_le_div_of_nonneg_right near.high Tpos.le) (by norm_num)
      _ = 1 / (value top * T) * value w * (1 + 2 ^ (-52 : ℤ)) ^ 2 := by
          field_simp

end

theorem isShare_sharesOf {label : String} {n : ℕ} {ws : Option (List Float)}
    (valid : Layout.shapeViolations label n ws = []) (few : n ≤ 2 ^ 52)
    (graded : ∀ xs ∈ ws, Graded xs) :
    (∀ s ∈ Layout.sharesOf ws n, IsShare s) ∧ Tapers 52 (Layout.sharesOf ws n) := by
  have two := Layout.two_le_of_shapeViolations valid
  cases ws with
  | none =>
    have even := isShare_even (by omega : 0 < n) few
    exact ⟨fun s hs => List.eq_of_mem_replicate hs ▸ even,
      tapers_replicate 52 n even.hasValue.pos.le⟩
  | some ws =>
    obtain ⟨len, positive⟩ := Layout.weights_of_shapeViolations valid
    have pos : ∀ w ∈ ws, HasValue w (value w) := fun w hw => hasValue_of_isPositive (positive w hw)
    have some : ws ≠ [] := List.ne_nil_of_length_pos (by omega)
    obtain ⟨spread, tapers⟩ := graded ws rfl
    obtain ⟨p, ppos, shares⟩ := share_proportional pos some (by omega) spread
    rw [Layout.sharesOf, if_pos len]
    dsimp only
    rw [if_pos (positive _ (top_greatest pos some).1), List.map_map]
    refine ⟨List.forall_mem_map.2 fun w hw => (shares w hw).1, tapers_map tapers ?_⟩
    intro v hv w hw le
    obtain ⟨-, -, above⟩ := shares v hv
    obtain ⟨-, below, -⟩ := shares w hw
    calc value (v / Scalar.top ws / Scalar.sum (ws.map (· / Scalar.top ws)))
        ≤ p * value v * (1 + 2 ^ (-52 : ℤ)) ^ 2 := above
      _ ≤ p * (2 ^ 51 * value w) * (1 + 2 ^ (-52 : ℤ)) ^ 2 := by gcongr
      _ = p * value w * (2 ^ 51 * (1 + 2 ^ (-52 : ℤ)) ^ 2) := by ring
      _ ≤ p * value w * (2 ^ 52 * (1 - 2 ^ (-52 : ℤ)) ^ 2) := by
          refine mul_le_mul_of_nonneg_left (by norm_num) ?_
          exact (mul_pos ppos (pos w hw).pos).le
      _ = 2 ^ 52 * (p * value w * (1 - 2 ^ (-52 : ℤ)) ^ 2) := by ring
      _ ≤ 2 ^ 52 * value (w / Scalar.top ws / Scalar.sum (ws.map (· / Scalar.top ws))) := by
          gcongr

/-! ## Chains -/

section
variable {x y : Float} {a b : ℚ}

/-- What counts next to the rest has a proper part of the whole. -/
theorem part_proper {n : ℕ} (hx : IsShare x) (hy : HasValue y b) (counts : value x ≤ 2 ^ 52 * b)
    (high : value x + b ≤ n) (few : n ≤ 2 ^ 52) :
    0 < x / (x + y) ∧ x / (x + y) < 1 ∧
      ∃ c, HasValue (x + y) c ∧ value x ≤ c ∧ b ≤ c ∧ c ≤ n := by
  obtain ⟨c, hc, rounds, left, right, most⟩ := hx.hasValue.add_le hy high (by omega)
  have whole : c ≤ 2 ^ (52 : ℤ) := most.trans (by exact_mod_cast few)
  obtain ⟨m, e, some, finite, fits, value_eq⟩ := hx.hasValue.fits
  have normal := hx.normal
  have part : value x / c ≤ 1 - 2 ^ (-53 : ℤ) := by
    rw [value_eq] at normal counts rounds ⊢
    exact fits.part_le normal counts rounds
  have low : 2 ^ (-1074 : ℤ) ≤ value x / c := by
    rw [le_div_iff₀ hc.pos]
    refine le_trans (mul_le_mul_of_nonneg_left whole (zpow_pos two_pos _).le) ?_
    rw [← zpow_add₀ two_ne_zero]
    exact normal
  have high : value x / c ≤ 2 ^ (0 : ℤ) := by
    rw [zpow_zero]
    exact part.trans (by norm_num)
  obtain ⟨r, hr, rounds⟩ :=
    hx.hasValue.div hc (inRange_of_le low high le_rfl (by norm_num))
  have below : r < 1 := ((rounds _ onGrid_one_sub).2 part).trans_lt (by norm_num)
  exact ⟨hr.zero_lt, (hr.lt_iff hasValue_one).2 below, c, hc, left, right, most⟩

end

variable {ι : Type}

theorem proper_chainWeighted {axis : Axis} {cs : List (Native Float ι × Float)}
    {n : Native Float ι} {w : Float} (few : cs.length ≤ 2 ^ 52) (shares : ∀ c ∈ cs, IsShare c.2)
    (tapers : Tapers 52 (cs.map (·.2))) (proper : ∀ c ∈ cs, ∀ r ∈ c.1.ratios, 0 < r ∧ r < 1)
    (h : Native.chainWeighted axis cs = some (n, w)) :
    (∀ r ∈ n.ratios, 0 < r ∧ r < 1) ∧
      ∃ b, HasValue w b ∧ b ≤ cs.length ∧ ∀ c ∈ cs, value c.2 ≤ b := by
  induction cs generalizing n w with
  | nil => cases h
  | cons c cs ih =>
    obtain ⟨share, shares⟩ := List.forall_mem_cons.1 shares
    obtain ⟨here, proper⟩ := List.forall_mem_cons.1 proper
    obtain ⟨counts, tapers⟩ := tapers
    rw [List.length_cons] at few ⊢
    rcases Native.chainWeighted_cons_cases h with ⟨rfl, rfl, rfl⟩ | ⟨tail, under, ht, rfl, rfl⟩
    · refine ⟨here, value c.2, share.hasValue, ?_, List.forall_mem_singleton.2 le_rfl⟩
      simpa using share.le_one
    · obtain ⟨rest, b, hb, high, all⟩ := ih (by omega) shares tapers proper ht
      have some : cs.map (·.2) ≠ [] := by
        intro none
        rw [List.map_eq_nil_iff.1 none] at ht
        cases ht
      obtain ⟨y, hy, le⟩ := counts some
      obtain ⟨d, hd, rfl⟩ := List.mem_map.1 hy
      have le : value c.2 ≤ 2 ^ 52 * b :=
        le.trans (mul_le_mul_of_nonneg_left (all d hd) (by norm_num))
      have sum : value c.2 + b ≤ (cs.length + 1 : ℕ) := by
        rw [Nat.cast_add_one, add_comm]
        exact add_le_add high share.le_one
      obtain ⟨pos, lt, t, ht, left, right, most⟩ := part_proper share hb le sum few
      refine ⟨?_, t, ht, most, List.forall_mem_cons.2 ⟨left, fun e he => (all e he).trans right⟩⟩
      rw [Native.ratios, List.forall_mem_cons, List.forall_mem_append]
      exact ⟨⟨pos, lt⟩, here, rest⟩

theorem proper_chain {axis : Axis} {ns : List (Native Float ι)} {ws : List Float}
    {n : Native Float ι} (len : ws.length = ns.length) (few : ws.length ≤ 2 ^ 52)
    (shares : ∀ w ∈ ws, IsShare w) (tapers : Tapers 52 ws)
    (proper : ∀ m ∈ ns, ∀ r ∈ m.ratios, 0 < r ∧ r < 1) (h : Native.chain axis ns ws = some n) :
    ∀ r ∈ n.ratios, 0 < r ∧ r < 1 := by
  obtain ⟨⟨m, w⟩, hm, rfl⟩ := Option.map_eq_some_iff.1 h
  refine (proper_chainWeighted ?_ (fun c hc => ?_) ?_ (fun c hc => ?_) hm).1
  · rw [List.length_zip]
    omega
  · exact shares c.2 (List.of_mem_zip hc).2
  · rw [List.map_snd_zip (by omega)]
    exact tapers
  · exact proper c.1 (List.of_mem_zip hc).1

end Double

/-! ## Layouts -/

namespace Layout

/-- No split has more children than doubles can count or weights that are too far apart. -/
def Graded (t : Layout Float) : Prop :=
  ∀ s ∈ t.nodes, s.children.length ≤ 2 ^ 52 ∧ ∀ ws ∈ s.weights, Double.Graded ws

theorem graded_pane (p : Pane) : (pane p : Layout Float).Graded :=
  List.forall_mem_singleton.2 ⟨Nat.zero_le _, fun _ h => nomatch h⟩

theorem graded_split {axis : Axis} {cs : List (Layout Float)} {ws : Option (List Float)} :
    (split axis cs ws).Graded ↔
      (cs.length ≤ 2 ^ 52 ∧ ∀ xs ∈ ws, Double.Graded xs) ∧ ∀ c ∈ cs, c.Graded := by
  unfold Graded
  rw [nodes, List.forall_mem_cons, nodesOf_eq, List.forall_mem_flatMap]
  rfl

mutual

theorem ratios_shape_doubles : ∀ {t : Layout Float} {n : Native Float Unit},
    splitViolations t = [] → t.Graded → t.shape = some n → ∀ r ∈ n.ratios, 0 < r ∧ r < 1
  | pane _, n, _, _, h => by
    obtain rfl := Option.some.inj h
    exact fun _ hr => nomatch hr
  | split axis cs ws, n, valid, graded, h => by
    rw [splitViolations, List.append_eq_nil_iff] at valid
    obtain ⟨⟨few, weights⟩, below⟩ := graded_split.1 graded
    obtain ⟨ns, hns, chain⟩ := Option.bind_eq_some_iff.1 h
    obtain ⟨shares, tapers⟩ := Double.isShare_sharesOf valid.1 few weights
    have len := sharesOf_length ws cs.length
    exact Double.proper_chain (len.trans (shapeOf_length hns).symm) (by rw [len]; exact few) shares
      tapers (ratios_shapeOf_doubles valid.2 below hns) chain

theorem ratios_shapeOf_doubles : ∀ {cs : List (Layout Float)} {ns : List (Native Float Unit)},
    splitViolationsOf cs = [] → (∀ c ∈ cs, c.Graded) → shapeOf cs = some ns →
    ∀ n ∈ ns, ∀ r ∈ n.ratios, 0 < r ∧ r < 1
  | [], ns, _, _, h => by
    obtain rfl := Option.some.inj h
    exact fun _ hn => nomatch hn
  | c :: cs, ns, valid, graded, h => by
    rw [splitViolationsOf, List.append_eq_nil_iff] at valid
    obtain ⟨first, later⟩ := List.forall_mem_cons.1 graded
    obtain ⟨n, hn, rest⟩ := Option.bind_eq_some_iff.1 h
    obtain ⟨ns, hns, rfl⟩ := Option.map_eq_some_iff.1 rest
    exact List.forall_mem_cons.2 ⟨ratios_shape_doubles valid.1 first hn,
      ratios_shapeOf_doubles valid.2 later hns⟩

end

end Layout

/-- In doubles too, every split of a planned page leaves something to both sides, unless the weights
of some split of the layout are too far apart. -/
theorem ratios_plan_doubles {t : Layout Float} {tables : TableMap} {plan : Plan Float}
    (made : Plan.make (some t) tables = .ok plan) (graded : t.Graded) :
    ∀ r ∈ plan.layout.ratios, 0 < r ∧ r < 1 := by
  obtain ⟨t', ht, valid, draws⟩ := Plan.make_ok made
  obtain rfl := Option.some.inj ht
  have splits := ((Layout.validate_eq_nil_iff t).1 valid).2.1
  intro r hr
  rw [← Native.ratios_shape] at hr
  exact Layout.ratios_shape_doubles splits graded draws.shape r hr

/-- Two panes, the second with as small a part as weights that are graded can give it. -/
def Layout.steep : Layout Float :=
  .split .horizontal [.pane (.leaf ⟨1⟩), .pane (.leaf ⟨2⟩)] (some [2251799813685248, 1])

theorem Layout.graded_steep : Layout.steep.Graded := by
  have large : Double.value (Float.ofNat 2251799813685248) = 2 ^ 51 := by
    rw [(Double.hasValue_natCast (by norm_num) (by norm_num)).value_eq]
    norm_num
  have small : Double.value 1 = 1 := Double.hasValue_one.value_eq
  have far : (2 : ℚ) ^ 51 ≤ 2 ^ 970 := pow_le_pow_right₀ one_le_two (by norm_num)
  refine Layout.graded_split.2 ⟨⟨by decide, ?_⟩, ?_⟩
  · rintro xs ⟨⟩
    change Double.Graded [Float.ofNat 2251799813685248, 1]
    constructor
    · simp only [List.forall_mem_cons, large, small]
      generalize (2 : ℚ) ^ 970 = K at far
      norm_num at far ⊢
      exact ⟨⟨by linarith, far⟩, by linarith, by linarith⟩
    · refine ⟨fun _ => ⟨1, List.mem_cons_self, ?_⟩, fun none => absurd rfl none, trivial⟩
      rw [large, small, mul_one]
  · exact List.forall_mem_cons.2 ⟨Layout.graded_pane _,
      List.forall_mem_singleton.2 (Layout.graded_pane _)⟩

theorem ratios_plan_doubles_steep : ∃ plan, Plan.make (some Layout.steep) ∅ = .ok plan ∧
    Layout.steep.Graded ∧ ∀ r ∈ plan.layout.ratios, 0 < r ∧ r < 1 := by
  have planned : (Plan.make (some Layout.steep) ∅).isOk = true := by decide +kernel
  cases made : Plan.make (some Layout.steep) ∅ with
  | error e =>
    rw [made] at planned
    cases planned
  | ok plan => exact ⟨plan, rfl, Layout.graded_steep, ratios_plan_doubles made Layout.graded_steep⟩

/-- Two panes, the second with so small a weight that it is lost next to the first. -/
def Layout.lopsided : Layout Float :=
  .split .horizontal [.pane (.leaf ⟨1⟩), .pane (.leaf ⟨2⟩)]
    (some [1, 1e-17])

/-- The weights pass, but the first pane is planned the whole page. -/
theorem lopsided_whole : Layout.validate (some Layout.lopsided) = [] ∧ ∃ plan,
    Plan.make (some Layout.lopsided) ∅ = .ok plan ∧
    ¬ ∀ r ∈ plan.layout.ratios, 0 < r ∧ r < 1 := by
  have planned : ((Plan.make (some Layout.lopsided) ∅).toOption.map fun p => p.layout.ratios) =
      some [1] := by
    decide +kernel
  refine ⟨by decide +kernel, ?_⟩
  cases made : Plan.make (some Layout.lopsided) ∅ with
  | error e =>
    rw [made] at planned
    cases planned
  | ok plan =>
    rw [made] at planned
    have whole : plan.layout.ratios = [1] := Option.some.inj planned
    refine ⟨plan, rfl, fun proper => ?_⟩
    rw [whole] at proper
    have less : (1 : Float) < 1 := (proper 1 List.mem_cons_self).2
    exact absurd less (by decide +kernel)

end PaneLayout
