import PaneLayout.Json.Read
import PaneLayout.Json.Write
import PaneLayout.Proofs.Shortest

set_option autoImplicit false

/-!
# Numerals

A numeral is read off its own text, up to what follows. The text of a double is that of a numeral
with a fraction or an exponent, and its value is that of the shortest digits; so texts tell doubles
apart, from each other and from integers.
-/

namespace PaneLayout.Json

/-! ## Digits -/

theorem digit?_digitChar : ∀ d < 10, digit? (Nat.digitChar d) = some d := by decide

theorem natOf_append (ds es : List ℕ) : natOf (ds ++ es) = natOf ds * 10 ^ es.length + natOf es := by
  induction es using List.reverseRecOn with
  | nil => simp [natOf]
  | append_singleton es e ih =>
    have last (fs : List ℕ) : natOf (fs ++ [e]) = 10 * natOf fs + e := by
      rw [natOf, List.foldl_append]
      rfl
    rw [← List.append_assoc, last, last, ih, List.length_append, List.length_singleton, pow_succ]
    ring

theorem natOf_replicate_zero (n : ℕ) : natOf (List.replicate n 0) = 0 := by
  induction n with
  | zero => rfl
  | succ n ih => exact ih

/-- A natural number as it is spelt out: without leading zeros. -/
structure Spelt (ds : List ℕ) : Prop where
  digit : ∀ d ∈ ds, d < 10
  lead : ds = [0] ∨ ∃ e es, ds = e :: es ∧ e ≠ 0

theorem exists_spelt (n : ℕ) :
    ∃ ds, Spelt ds ∧ natOf ds = n ∧ (Nat.repr n).toList = ds.map Nat.digitChar := by
  rw [Nat.toList_repr]
  induction n using Nat.strongRecOn with
  | ind n ih =>
    by_cases small : n < 10
    · refine ⟨[n], ⟨by simpa using small, ?_⟩, by simp [natOf], Nat.toDigits_of_lt_base small⟩
      rcases Nat.eq_zero_or_pos n with rfl | pos
      · exact .inl rfl
      · exact .inr ⟨n, [], rfl, pos.ne'⟩
    · obtain ⟨ds, spelt, value, text⟩ := ih (n / 10) (by omega)
      have last : n % 10 < 10 := Nat.mod_lt _ (by norm_num)
      have split := Nat.toDigits_append_toDigits (b := 10) (n := n / 10) (by norm_num) (by omega) last
      rw [Nat.div_add_mod, Nat.toDigits_of_lt_base last, text] at split
      refine ⟨ds ++ [n % 10], ⟨?_, ?_⟩, ?_, by rw [← split, List.map_append]; rfl⟩
      · intro d hd
        rcases List.mem_append.1 hd with hd | hd
        · exact spelt.digit d hd
        · exact List.mem_singleton.1 hd ▸ last
      · rcases spelt.lead with rfl | ⟨e, es, rfl, ne⟩
        · have zero : 0 = n / 10 := value
          omega
        · exact .inr ⟨e, es ++ [n % 10], rfl, ne⟩
      · rw [natOf_append, value]
        simp only [natOf, List.length_singleton, List.foldl]
        omega

theorem Spelt.ne_nil {ds : List ℕ} (h : Spelt ds) : ds ≠ [] := by
  rcases h.lead with rfl | ⟨e, es, rfl, -⟩ <;> exact List.cons_ne_nil _ _

/-! ## Reading numerals -/

/-- What may stand behind a value. -/
def Ends (rest : List Char) : Prop := ∀ c ∈ rest.head?, c = ',' ∨ c = ']' ∨ c = '\x7d'

theorem ends_nil : Ends [] := fun _ h => nomatch h

theorem takeDigits_append {ds : List ℕ} {rest : List Char} (digits : ∀ d ∈ ds, d < 10)
    (stop : ∀ c ∈ rest.head?, digit? c = none) :
    takeDigits (ds.map Nat.digitChar ++ rest) = (ds, rest) := by
  induction ds with
  | nil =>
    cases rest with
    | nil => rfl
    | cons c cs => rw [List.map_nil, List.nil_append, takeDigits, stop c rfl]
  | cons d ds ih =>
    obtain ⟨here, digits⟩ := List.forall_mem_cons.1 digits
    rw [List.map_cons, List.cons_append, takeDigits, digit?_digitChar d here]
    simp only [ih digits]

namespace Numeral

def sign (n : Numeral) : List Char := if n.negative then ['-'] else []

def point (n : Numeral) : List Char :=
  match n.fraction with
  | none => []
  | some ds => '.' :: ds.map Nat.digitChar

def power (n : Numeral) : List Char :=
  match n.exponent with
  | none => []
  | some e => 'e' :: (if e < 0 then '-' else '+') :: (Nat.repr e.natAbs).toList

/-- The text of a numeral. -/
def chars (n : Numeral) : List Char :=
  n.sign ++ n.whole.map Nat.digitChar ++ n.point ++ n.power

structure Proper (n : Numeral) : Prop where
  whole : Spelt n.whole
  fraction : ∀ ds, n.fraction = some ds → ds ≠ [] ∧ ∀ d ∈ ds, d < 10

end Numeral

theorem Ends.digit? {rest : List Char} (ends : Ends rest) :
    ∀ c ∈ rest.head?, Json.digit? c = none := by
  intro c hc
  rcases ends c hc with rfl | rfl | rfl <;> rfl

theorem exponent?_append (n : Numeral) {rest : List Char} (ends : Ends rest) :
    exponent? (n.power ++ rest) = some (n.exponent, rest) := by
  cases he : n.exponent with
  | none =>
    rw [Numeral.power, he, List.nil_append]
    cases rest with
    | nil => rfl
    | cons c cs => rcases ends c rfl with rfl | rfl | rfl <;> rfl
  | some e =>
    obtain ⟨ds, spelt, value, text⟩ := exists_spelt e.natAbs
    obtain ⟨d, es, rfl⟩ := List.exists_cons_of_ne_nil spelt.ne_nil
    have read := takeDigits_append spelt.digit ends.digit?
    simp only [Numeral.power, he, text, List.cons_append, exponent?, true_or, if_true]
    by_cases neg : e < 0
    · simp only [neg, if_true, read, value]
      congr 3
      omega
    · simp only [neg, if_false, read, value]
      simp only [Bool.false_eq_true, if_false]
      congr 3
      omega

theorem power_stop (n : Numeral) {rest : List Char} (ends : Ends rest) :
    ∀ c ∈ (n.power ++ rest).head?, c ≠ '.' ∧ digit? c = none := by
  intro c hc
  cases he : n.exponent with
  | none =>
    rw [Numeral.power, he, List.nil_append] at hc
    exact ⟨by rcases ends c hc with rfl | rfl | rfl <;> decide, ends.digit? c hc⟩
  | some e =>
    rw [Numeral.power, he] at hc
    obtain rfl := Option.some.inj hc
    exact ⟨by decide, rfl⟩

theorem fraction?_append {n : Numeral} (proper : n.Proper) {rest : List Char} (ends : Ends rest) :
    fraction? (n.point ++ (n.power ++ rest)) = some (n.fraction, n.power ++ rest) := by
  have stop := power_stop n ends
  cases hf : n.fraction with
  | none =>
    rw [Numeral.point, hf, List.nil_append]
    unfold fraction?
    split
    · next cs h => exact absurd rfl (stop '.' (by rw [h]; rfl)).1
    · rfl
  | some ds =>
    obtain ⟨some, digits⟩ := proper.fraction ds hf
    obtain ⟨d, es, rfl⟩ := List.exists_cons_of_ne_nil some
    rw [Numeral.point, hf, List.cons_append]
    simp only [fraction?, takeDigits_append digits fun c hc => (stop c hc).2]

theorem point_stop (n : Numeral) {rest : List Char} (ends : Ends rest) :
    ∀ c ∈ (n.point ++ (n.power ++ rest)).head?, digit? c = none := by
  intro c hc
  cases hf : n.fraction with
  | none =>
    rw [Numeral.point, hf, List.nil_append] at hc
    exact (power_stop n ends c hc).2
  | some ds =>
    rw [Numeral.point, hf] at hc
    obtain rfl := Option.some.inj hc
    rfl

theorem digitChar_ne_minus : ∀ d < 10, Nat.digitChar d ≠ '-' := by decide

theorem takeMinus_chars {n : Numeral} (proper : n.Proper) (rest : List Char) :
    takeMinus (n.chars ++ rest) =
      (n.negative, n.whole.map Nat.digitChar ++ (n.point ++ (n.power ++ rest))) := by
  obtain ⟨d, ds, hw⟩ := List.exists_cons_of_ne_nil proper.whole.ne_nil
  simp only [Numeral.chars, Numeral.sign, List.append_assoc]
  cases n.negative with
  | true => rfl
  | false =>
    have here := digitChar_ne_minus d (proper.whole.digit d (hw ▸ List.mem_cons_self))
    rw [hw]
    simp [takeMinus, here]

/-- A numeral is read off its text. -/
theorem numeral?_chars {n : Numeral} (proper : n.Proper) {rest : List Char} (ends : Ends rest) :
    numeral? (n.chars ++ rest) = some (n, rest) := by
  have digits := takeDigits_append proper.whole.digit (point_stop n ends)
  unfold numeral?
  rw [takeMinus_chars proper]
  simp only [digits, fraction?_append proper ends]
  split
  · next h => exact absurd h proper.whole.ne_nil
  · next h =>
    rcases proper.whole.lead with k | ⟨d, ds, k, ne⟩ <;> rw [h] at k
    · cases k
    · exact absurd (List.cons.inj k).1.symm ne
  · simp only [bind, Option.bind, exponent?_append n ends]
    rfl

theorem chars_inj {m n : Numeral} (hm : m.Proper) (hn : n.Proper) (same : m.chars = n.chars) :
    m = n := by
  have read := numeral?_chars hm ends_nil
  rw [same, numeral?_chars hn ends_nil] at read
  exact (Prod.mk.inj (Option.some.inj read)).1.symm

/-! ## Numerals of doubles -/

def Numeral.value (n : Numeral) : ℚ :=
  natOf (n.whole ++ n.fraction.getD []) * 10 ^ (n.exponent.getD 0 - (n.fraction.getD []).length)

/-- What is written for a number that is no integer. -/
def Numeral.IsReal (n : Numeral) : Prop := n.fraction.isSome ∨ n.exponent.isSome

theorem toList_zeros (n : ℕ) :
    (Decimal.zeros n).toList = (List.replicate n 0).map Nat.digitChar := by
  rw [Decimal.zeros, String.toList_ofList, List.map_replicate]
  rfl

theorem natOf_zeros_append (z : ℕ) (ds : List ℕ) : natOf (List.replicate z 0 ++ ds) = natOf ds := by
  rw [natOf_append, natOf_replicate_zero, zero_mul, zero_add]

theorem natOf_append_zeros (ds : List ℕ) (z : ℕ) :
    natOf (ds ++ List.replicate z 0) = natOf ds * 10 ^ z := by
  rw [natOf_append, natOf_replicate_zero, List.length_replicate, add_zero]

theorem digit_replicate_zero {z : ℕ} : ∀ d ∈ List.replicate z 0, d < 10 := by
  intro d hd
  rw [(List.mem_replicate.1 hd).2]
  norm_num

theorem spelt_cons {e : ℕ} {es : List ℕ} (ne : e ≠ 0) (digit : ∀ d ∈ e :: es, d < 10) :
    Spelt (e :: es) :=
  ⟨digit, .inr ⟨e, es, rfl, ne⟩⟩

theorem Numeral.value_eq {n : Numeral} {d : Decimal.Digits}
    (digits : natOf (n.whole ++ n.fraction.getD []) = d.digits)
    (exponent : n.exponent.getD 0 - (n.fraction.getD []).length = d.exponent) :
    n.value = d.value := by
  rw [Numeral.value, Decimal.Digits.value, digits, exponent]

/-- The numeral has no sign, a point or an exponent, and the value of these digits. -/
structure Numeral.SetsOut (n : Numeral) (d : Decimal.Digits) : Prop where
  proper : n.Proper
  plain : n.negative = false
  real : n.IsReal
  value : n.value = d.value

section
variable {d : Decimal.Digits} {e : ℕ} {es : List ℕ} (ne : e ≠ 0) (digit : ∀ x ∈ e :: es, x < 10)
  (value : natOf (e :: es) = d.digits)
include digit value

theorem setsOut_fraction {k : ℤ} (hk : ((es.length + 1 : ℕ) : ℤ) + d.exponent = k) (low : k ≤ 0) :
    Numeral.SetsOut ⟨false, [0], some (List.replicate (-k).toNat 0 ++ (e :: es)), none⟩ d := by
  refine ⟨⟨⟨by simp, .inl rfl⟩, ?_⟩, rfl, .inl rfl, Numeral.value_eq ?_ ?_⟩
  · rintro _ ⟨⟩
    exact ⟨by simp, List.forall_mem_append.2 ⟨digit_replicate_zero, digit⟩⟩
  · exact (natOf_zeros_append ((-k).toNat + 1) (e :: es)).trans value
  · simp only [Option.getD, List.length_append, List.length_replicate, List.length_cons]
    omega

include ne

theorem setsOut_whole {z : ℕ} (hz : d.exponent = z) :
    Numeral.SetsOut ⟨false, (e :: es) ++ List.replicate z 0, some [0], none⟩ d := by
  have digits : ∀ x ∈ e :: es ++ List.replicate z 0, x < 10 :=
    List.forall_mem_append.2 ⟨digit, digit_replicate_zero⟩
  refine ⟨⟨spelt_cons ne digits, ?_⟩, rfl, .inl rfl, ?_⟩
  · rintro _ ⟨⟩
    exact ⟨by simp, by simp⟩
  · have all : natOf ((e :: es) ++ List.replicate z 0 ++ [0]) = d.digits * 10 ^ (z + 1) := by
      rw [List.append_assoc, ← List.replicate_succ', natOf_append_zeros, value]
    rw [Numeral.value, Option.getD_some, all, Decimal.Digits.value, hz, Nat.cast_mul, Nat.cast_pow,
      mul_assoc, Nat.cast_ofNat, ← zpow_natCast, ← zpow_add₀ (by norm_num)]
    congr 2
    simp

theorem setsOut_point {j : ℕ} (hj : ((es.length + 1 : ℕ) : ℤ) + d.exponent = (j + 1 : ℕ))
    (short : j < es.length) :
    Numeral.SetsOut ⟨false, e :: es.take j, some (es.drop j), none⟩ d := by
  have spelt := spelt_cons ne fun x hx =>
    digit x (List.cons_subset_cons e (List.take_subset j es) hx)
  refine ⟨⟨spelt, ?_⟩, rfl, .inl rfl, Numeral.value_eq ?_ ?_⟩
  · rintro _ ⟨⟩
    refine ⟨fun none => ?_, fun x hx => digit x (List.mem_cons_of_mem _ (List.mem_of_mem_drop hx))⟩
    have long := List.drop_eq_nil_iff.1 none
    omega
  · simpa using value
  · simp only [Option.getD, List.length_drop]
    omega

theorem setsOut_power {k : ℤ} (hk : ((es.length + 1 : ℕ) : ℤ) + d.exponent = k) :
    Numeral.SetsOut ⟨false, [e], if es = [] then none else some es, some (k - 1)⟩ d := by
  obtain ⟨first, rest⟩ := List.forall_mem_cons.1 digit
  have spelt := spelt_cons ne (List.forall_mem_singleton.2 first)
  cases es with
  | nil =>
    refine ⟨⟨spelt, ?_⟩, rfl, .inr rfl, Numeral.value_eq value ?_⟩
    · rintro _ ⟨⟩
    · simp only [if_true, Option.getD, List.length_nil] at hk ⊢
      omega
  | cons f fs =>
    have some : f :: fs ≠ [] := List.cons_ne_nil f fs
    rw [if_neg some]
    refine ⟨⟨spelt, ?_⟩, rfl, .inr rfl, Numeral.value_eq value ?_⟩
    · rintro _ ⟨⟩
      exact ⟨some, rest⟩
    · simp only [Option.getD, List.length_cons] at hk ⊢
      omega

end

/-- Digits that are set out are a numeral of the same value. -/
theorem exists_numeral_place {d : Decimal.Digits} (pos : 0 < d.digits) :
    ∃ n : Numeral, n.SetsOut d ∧ (number.place d).toList = n.chars := by
  obtain ⟨ds, ⟨digit, lead⟩, value, text⟩ := exists_spelt d.digits
  obtain ⟨e, es, rfl, ne⟩ : ∃ e es, ds = e :: es ∧ e ≠ 0 := by
    rcases lead with rfl | lead
    · exact absurd value pos.ne
    · exact lead
  have length : (Nat.repr d.digits).length = es.length + 1 := by
    rw [← String.length_toList, text, List.length_map, List.length_cons]
  obtain ⟨k, hk⟩ : ∃ k : ℤ, ((es.length + 1 : ℕ) : ℤ) + d.exponent = k := ⟨_, rfl⟩
  unfold Decimal.Style.place
  simp only [length, hk]
  split
  · split
    · next low =>
      refine ⟨_, setsOut_fraction digit value hk low, ?_⟩
      simp [Numeral.chars, Numeral.sign, Numeral.point, Numeral.power, toList_zeros, text]
    · split
      · obtain ⟨z, hz⟩ : ∃ z : ℕ, d.exponent = z := ⟨d.exponent.toNat, by omega⟩
        have zeros : (k - (es.length + 1 : ℕ)).toNat = z := by omega
        rw [zeros]
        refine ⟨_, setsOut_whole ne digit value hz, ?_⟩
        simp [Numeral.chars, Numeral.sign, Numeral.point, Numeral.power, toList_zeros, text, number]
      · obtain ⟨j, hj⟩ : ∃ j : ℕ, k = (j + 1 : ℕ) := ⟨k.toNat - 1, by omega⟩
        refine ⟨_, setsOut_point ne digit value (hk.trans hj) (by omega), ?_⟩
        simp [Numeral.chars, Numeral.sign, Numeral.point, Numeral.power, text, hj]
  · refine ⟨_, setsOut_power ne digit value hk, ?_⟩
    cases es <;>
      (simp only [text, List.map_cons, List.map_nil, Numeral.chars, Numeral.sign, Numeral.point,
        Numeral.power]
       split <;> simp)

/-- What is written without its sign. -/
theorem exists_numeral_size {size : ℕ} (lt : size < 2 ^ 63) :
    ∃ n : Numeral, n.Proper ∧ n.negative = false ∧ n.IsReal ∧
      n.value = (if size = 0 then 0 else (Decimal.shortest number.up (.ofNat size)).value) ∧
      (if size = 0 then "0.0" else number.place (Decimal.shortest number.up (.ofNat size))).toList =
        n.chars := by
  split
  · refine ⟨⟨false, [0], some [0], none⟩, ⟨⟨by simp, .inl rfl⟩, ?_⟩, rfl, .inl rfl, ?_, rfl⟩
    · rintro _ ⟨⟩
      exact ⟨by simp, by simp⟩
    · simp [Numeral.value, natOf]
  · next pos =>
    have toNat : (UInt64.ofNat size).toNat = size :=
      UInt64.toNat_ofNat_of_lt (lt_trans lt (by decide))
    have positive : 0 < (Decimal.shortest number.up (.ofNat size)).digits :=
      Decimal.shortest_pos (by omega) (by omega)
    obtain ⟨n, out, text⟩ := exists_numeral_place positive
    exact ⟨n, out.proper, out.plain, out.real, out.value, text⟩

/-- The numeral that is written for a double. -/
structure Numeral.Stands (n : Numeral) (x : Float) : Prop where
  proper : n.Proper
  real : n.IsReal
  text : (number.text x).toList = n.chars
  sign : n.negative = decide (2 ^ 63 ≤ x.toBits.toNat)
  value : n.value = if x.toBits.toNat % 2 ^ 63 = 0 then 0
    else (Decimal.shortest number.up (.ofNat (x.toBits.toNat % 2 ^ 63))).value

theorem exists_stands (x : Float) : ∃ n : Numeral, n.Stands x := by
  have size : x.toBits.toNat % 2 ^ 63 < 2 ^ 63 := Nat.mod_lt _ (by norm_num)
  have bits : x.toBits.toNat < 2 ^ 64 := x.toBits.toNat_lt
  obtain ⟨n, proper, plain, real, value, text⟩ := exists_numeral_size size
  refine ⟨{ n with negative := decide (2 ^ 63 ≤ x.toBits.toNat) }, ⟨proper.whole, proper.fraction⟩,
    real, ?_, rfl, value⟩
  have sign : (if x.toBits.toNat = x.toBits.toNat % 2 ^ 63 then "" else "-").toList =
      if decide (2 ^ 63 ≤ x.toBits.toNat) then ['-'] else [] := by
    by_cases big : 2 ^ 63 ≤ x.toBits.toNat
    · rw [if_neg (by omega), if_pos (decide_eq_true big)]
      rfl
    · rw [if_pos (by omega), if_neg (by simpa using big)]
      rfl
  rw [Numeral.chars, Numeral.sign, plain] at text
  rw [Decimal.Style.text, String.toList_append]
  simp only [Nat.pow_eq]
  change _ ++ (if x.toBits.toNat % 2 ^ 63 = 0 then "0.0" else _).toList = _
  rw [text, sign]
  simp only [Numeral.chars, Numeral.sign, Bool.false_eq_true, if_false, List.nil_append,
    List.append_assoc]
  rfl

theorem size_inj {s t : ℕ} (hs : s < 2 ^ 63) (ht : t < 2 ^ 63)
    (same : (if s = 0 then 0 else (Decimal.shortest number.up (.ofNat s)).value) =
      if t = 0 then 0 else (Decimal.shortest number.up (.ofNat t)).value) : s = t := by
  have toNat {n : ℕ} (h : n < 2 ^ 63) : (UInt64.ofNat n).toNat = n :=
    UInt64.toNat_ofNat_of_lt (lt_trans h (by decide))
  have ls := toNat hs
  have lt := toNat ht
  split at same <;> split at same
  · omega
  · exact absurd same.symm (Decimal.shortest_value_ne_zero (by omega) (by omega))
  · exact absurd same (Decimal.shortest_value_ne_zero (by omega) (by omega))
  · rw [← ls, ← lt, Decimal.shortest_inj (by omega) (by omega) (by omega) (by omega) same]

theorem eq_of_toBits {x y : Float} (same : x.toBits = y.toBits) : x = y := by
  rcases x with ⟨⟨_, _⟩⟩
  rcases y with ⟨⟨_, _⟩⟩
  cases same
  rfl

/-- A numeral stands for one double. -/
theorem Numeral.Stands.unique {n : Numeral} {x y : Float} (hx : n.Stands x) (hy : n.Stands y) :
    x = y := by
  have bitsx : x.toBits.toNat < 2 ^ 64 := x.toBits.toNat_lt
  have bitsy : y.toBits.toNat < 2 ^ 64 := y.toBits.toNat_lt
  have sign := decide_eq_decide.1 (hx.sign.symm.trans hy.sign)
  have size := size_inj (Nat.mod_lt _ (by norm_num)) (Nat.mod_lt _ (by norm_num))
    (hx.value.symm.trans hy.value)
  exact eq_of_toBits (UInt64.toNat_inj.1 (by omega))

/-- Doubles are told apart by their texts. -/
theorem number_text_inj {x y : Float} (same : number.text x = number.text y) : x = y := by
  obtain ⟨m, hm⟩ := exists_stands x
  obtain ⟨n, hn⟩ := exists_stands y
  have chars : m.chars = n.chars := by rw [← hm.text, ← hn.text, same]
  obtain rfl := chars_inj hm.proper hn.proper chars
  exact hm.unique hn

end PaneLayout.Json
