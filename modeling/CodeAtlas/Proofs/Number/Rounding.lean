import Mathlib.Algebra.Order.Field.Power
import Mathlib.Algebra.Order.Field.Rat
import Mathlib.Algebra.Ring.Parity
import Mathlib.Tactic.FieldSimp
import Mathlib.Tactic.Linarith
import Mathlib.Tactic.Positivity
import Mathlib.Tactic.Ring
import CodeAtlas.Number.Binary64

/-! # Correct rounding

The binary number that is computed of a fraction or a decimal is the one nearest to it, and the even
one of two that are equally near. It depends on the exact value only.
-/

namespace CodeAtlas.Binary64

theorem cast_pow_toNat {b : ℕ} {e : ℤ} (he : 0 ≤ e) :
    ((Nat.pow b e.toNat : ℕ) : ℚ) = (b : ℚ) ^ e := by
  rw [Nat.pow_eq, Nat.cast_pow, ← zpow_natCast, Int.toNat_of_nonneg he]

theorem cast_pow_toNat_neg {b : ℕ} {e : ℤ} (he : ¬ 0 ≤ e) :
    ((Nat.pow b (-e).toNat : ℕ) : ℚ)⁻¹ = (b : ℚ) ^ e := by
  rw [cast_pow_toNat (by omega), zpow_neg, inv_inv]

/-- The integer is the one nearest to a number, and the even one of two. -/
def IsNearest (v : ℚ) (n : ℕ) : Prop := |v - n| < 1 / 2 ∨ (|v - n| = 1 / 2 ∧ Even n)

theorem IsNearest.abs_le {v : ℚ} {n : ℕ} (h : IsNearest v n) : |v - n| ≤ 1 / 2 := by
  rcases h with h | ⟨h, -⟩
  · exact h.le
  · exact h.le

theorem IsNearest.not_succ {v : ℚ} {n m : ℕ} (h : IsNearest v n) (h' : IsNearest v m) :
    ¬ n < m := by
  intro hlt
  have hstep : (n : ℚ) + 1 ≤ m := by exact_mod_cast hlt
  have hn := abs_sub_le_iff.mp h.abs_le
  have hm := abs_sub_le_iff.mp h'.abs_le
  have hv : v = n + 1 / 2 := by linarith [hn.1, hm.2]
  have hnext : (m : ℚ) = n + 1 := by linarith [hm.2]
  obtain rfl : m = n + 1 := by exact_mod_cast hnext
  -- Both are half a unit away, so both would be even.
  have heven : Even n := by
    rcases h with h | ⟨-, h⟩
    · exact absurd h (by rw [hv]; norm_num)
    · exact h
  have heven' : Even (n + 1) := by
    rcases h' with h | ⟨-, h⟩
    · refine absurd h ?_
      rw [hv, Nat.cast_add_one]
      norm_num
    · exact h
  exact (Nat.even_add_one.mp heven') heven

theorem IsNearest.unique {v : ℚ} {n m : ℕ} (h : IsNearest v n) (h' : IsNearest v m) : n = m :=
  Nat.le_antisymm (Nat.not_lt.mp (h'.not_succ h)) (Nat.not_lt.mp (h.not_succ h'))

theorem isNearest_below {n : ℕ} {part : ℚ} (h0 : 0 ≤ part)
    (h : part < 1 / 2 ∨ (part = 1 / 2 ∧ Even n)) : IsNearest (n + part) n := by
  rw [IsNearest, add_sub_cancel_left, abs_of_nonneg h0]
  exact h

theorem isNearest_above {n : ℕ} {part : ℚ} (h1 : part < 1)
    (h : 1 / 2 < part ∨ (part = 1 / 2 ∧ Even (n + 1))) : IsNearest (n + part) (n + 1 : ℕ) := by
  have hdistance : |(n : ℚ) + part - (n + 1 : ℕ)| = 1 - part := by
    rw [Nat.cast_add_one, add_sub_add_left_eq_sub, abs_sub_comm, abs_of_pos (by linarith)]
  rw [IsNearest, hdistance]
  rcases h with h | ⟨h, heven⟩
  · exact Or.inl (by linarith)
  · exact Or.inr ⟨by linarith, heven⟩

/-- A fraction as its integer part and the rest. -/
theorem div_eq_floor_add (num : ℕ) {den : ℕ} (hden : 0 < den) :
    (num : ℚ) / den = (num / den : ℕ) + (num % den : ℕ) / den := by
  have hpos : (0 : ℚ) < den := by exact_mod_cast hden
  have hnum : (num : ℚ) = den * (num / den : ℕ) + (num % den : ℕ) := by
    exact_mod_cast (Nat.div_add_mod num den).symm
  rw [hnum]
  field_simp

theorem isNearest_roundDiv (num : ℕ) {den : ℕ} (hden : 0 < den) :
    IsNearest (num / den) (roundDiv num den) := by
  have hpos : (0 : ℚ) < den := by exact_mod_cast hden
  have hlt : num % den < den := Nat.mod_lt _ hden
  rw [div_eq_floor_add num hden, roundDiv]
  generalize num / den = q
  generalize num % den = r at hlt
  have hless : (r : ℚ) / den < 1 / 2 ↔ 2 * r < den := by
    rw [div_lt_div_iff₀ hpos two_pos, one_mul, mul_comm]
    exact_mod_cast Iff.rfl
  have hmore : (1 : ℚ) / 2 < r / den ↔ den < 2 * r := by
    rw [div_lt_div_iff₀ two_pos hpos, one_mul, mul_comm (r : ℚ)]
    exact_mod_cast Iff.rfl
  have hhalf : (r : ℚ) / den = 1 / 2 ↔ 2 * r = den := by
    rw [div_eq_div_iff hpos.ne' two_ne_zero, one_mul, mul_comm]
    exact_mod_cast Iff.rfl
  simp only [Bool.or_eq_true, Bool.and_eq_true, decide_eq_true_eq]
  split
  · next h =>
    refine isNearest_below (by positivity) ?_
    rw [hless, hhalf, Nat.even_iff]
    exact h
  · next h =>
    refine isNearest_above ((div_lt_one hpos).mpr (by exact_mod_cast hlt)) ?_
    rw [hmore, hhalf, Nat.even_iff]
    omega

theorem isNearest_scaled (num : ℕ) {den : ℕ} (hden : 0 < den) (e : ℤ) :
    IsNearest ((num : ℚ) / den / 2 ^ e) (scaled num den e) := by
  unfold scaled
  split
  · next he =>
    have hunit : (2 : ℚ) ^ e = (Nat.pow 2 e.toNat : ℕ) := (cast_pow_toNat he).symm
    rw [hunit, div_div, ← Nat.cast_mul]
    exact isNearest_roundDiv num (Nat.mul_pos hden (Nat.pow_pos two_pos))
  · next he =>
    have hunit : (2 : ℚ) ^ e = ((Nat.pow 2 (-e).toNat : ℕ) : ℚ)⁻¹ := (cast_pow_toNat_neg he).symm
    rw [hunit, div_inv_eq_mul, div_mul_eq_mul_div, ← Nat.cast_mul]
    exact isNearest_roundDiv _ hden

/-- The exponent of the unit in which a number is rounded: its significand has 53 binary digits, or
fewer with the least exponent. -/
structure IsExponent (r : ℚ) (e : ℤ) : Prop where
  least : -1074 ≤ e
  lt : r < 2 ^ (e + 53)
  le : e = -1074 ∨ 2 ^ (e + 52) ≤ r

theorem IsExponent.not_lt {r : ℚ} {e e' : ℤ} (h : IsExponent r e) (h' : IsExponent r e') :
    ¬ e < e' := by
  intro hlt
  rcases h'.le with he | hle
  · have := h.least
    omega
  · have hpow : (2 : ℚ) ^ (e + 53) ≤ 2 ^ (e' + 52) := zpow_le_zpow_right₀ one_le_two (by omega)
    linarith [h.lt]

theorem IsExponent.unique {r : ℚ} {e e' : ℤ} (h : IsExponent r e) (h' : IsExponent r e') :
    e = e' := by
  have := h.not_lt h'
  have := h'.not_lt h
  omega

/-- The fields of the number with a significand of at most 53 binary digits and an exponent. -/
def fieldsOf (m : ℕ) (e : ℤ) : ℕ :=
  if 971 < e then 2047 * 2 ^ 52
  else if m < 2 ^ 52 then m
  else (e + 1075).toNat * 2 ^ 52 + (m - 2 ^ 52)

/-- A significand of 54 binary digits is the least one of the next exponent. -/
theorem fieldsOf_carry {e : ℤ} (he : -1074 ≤ e) :
    fieldsOf (2 ^ 53) e = fieldsOf (2 ^ 52) (e + 1) := by
  unfold fieldsOf
  split_ifs <;> omega

theorem ofFields_fieldsOf (negative : Bool) (m : ℕ) (e : ℤ) :
    ofFields negative (fieldsOf m e) = if 971 < e then infinity negative
      else if m < Nat.pow 2 52 then ofFields negative m
      else ofFields negative ((e + 1075).toNat * Nat.pow 2 52 + (m - Nat.pow 2 52)) := by
  rw [fieldsOf, apply_ite (ofFields negative), apply_ite (ofFields negative)]
  rfl

/-- The number is correctly rounded from a positive one. -/
def Rounds (negative : Bool) (r : ℚ) (x : Binary64) : Prop :=
  ∃ e m, IsExponent r e ∧ IsNearest (r / 2 ^ e) m ∧ x = ofFields negative (fieldsOf m e)

theorem Rounds.unique {negative : Bool} {r : ℚ} {x y : Binary64} (hx : Rounds negative r x)
    (hy : Rounds negative r y) : x = y := by
  obtain ⟨e, m, he, hm, rfl⟩ := hx
  obtain ⟨e', m', he', hm', rfl⟩ := hy
  obtain rfl := he.unique he'
  obtain rfl := hm.unique hm'
  rfl

section Ratio

variable {num den : ℕ}

theorem le_log2 (h : 0 < num) : (2 : ℚ) ^ (num.log2 : ℤ) ≤ num := by
  rw [zpow_natCast]
  exact_mod_cast Nat.log2_self_le h.ne'

theorem lt_log2 (num : ℕ) : (num : ℚ) < 2 ^ (num.log2 + 1 : ℤ) := by
  have h : num < 2 ^ (num.log2 + 1) := Nat.lt_log2_self
  exact_mod_cast h

/-- The exponents of numerator and denominator give that of the fraction up to one. -/
theorem ratio_bounds (hnum : 0 < num) (hden : 0 < den) :
    (2 : ℚ) ^ ((num.log2 : ℤ) - den.log2 - 1) < num / den ∧
      (num : ℚ) / den < 2 ^ ((num.log2 : ℤ) - den.log2 + 1) := by
  have hpos : (0 : ℚ) < den := by exact_mod_cast hden
  constructor
  · rw [lt_div_iff₀ hpos]
    calc (2 : ℚ) ^ ((num.log2 : ℤ) - den.log2 - 1) * den
        < 2 ^ ((num.log2 : ℤ) - den.log2 - 1) * 2 ^ (den.log2 + 1 : ℤ) := by
          gcongr
          exact lt_log2 den
      _ = 2 ^ (num.log2 : ℤ) := by
          rw [← zpow_add₀ two_ne_zero]
          congr 1
          omega
      _ ≤ num := le_log2 hnum
  · rw [div_lt_iff₀ hpos]
    calc (num : ℚ) < 2 ^ (num.log2 + 1 : ℤ) := lt_log2 num
      _ = 2 ^ ((num.log2 : ℤ) - den.log2 + 1) * 2 ^ (den.log2 : ℤ) := by
          rw [← zpow_add₀ two_ne_zero]
          congr 1
          omega
      _ ≤ 2 ^ ((num.log2 : ℤ) - den.log2 + 1) * den := by
          gcongr
          exact le_log2 hden

theorem isExponent_max {r : ℚ} {e : ℤ} (hle : 2 ^ (e + 52) ≤ r) (hlt : r < 2 ^ (e + 53)) :
    IsExponent r (max e (-1074)) := by
  refine ⟨le_max_right _ _, hlt.trans_le ?_, ?_⟩
  · exact zpow_le_zpow_right₀ one_le_two (by omega)
  · rcases le_total e (-1074) with he | he
    · exact Or.inl (max_eq_right he)
    · exact Or.inr (by rwa [max_eq_left he])

/-- The test of the guess compares the fraction with a power of two. -/
theorem below_iff (num : ℕ) (hden : 0 < den) (guess : ℤ) :
    (if 0 ≤ guess then decide (num < den * Nat.pow 2 (guess + 52).toNat)
      else decide (num * Nat.pow 2 (-guess).toNat < den * Nat.pow 2 52)) = true ↔
    (num : ℚ) / den < 2 ^ (guess + 52) := by
  have hpos : (0 : ℚ) < den := by exact_mod_cast hden
  rw [div_lt_iff₀ hpos]
  split
  · next hguess =>
    have hunit : (2 : ℚ) ^ (guess + 52) = (Nat.pow 2 (guess + 52).toNat : ℕ) :=
      (cast_pow_toNat (by omega)).symm
    rw [decide_eq_true_eq, hunit, mul_comm]
    exact_mod_cast Iff.rfl
  · next hguess =>
    have hsplit : (2 : ℚ) ^ (guess + 52) * 2 ^ (-guess) = 2 ^ 52 := by
      rw [← zpow_add₀ two_ne_zero, add_comm guess, add_neg_cancel_right]
      rfl
    have hpow : (2 : ℚ) ^ (-guess) = (Nat.pow 2 (-guess).toNat : ℕ) :=
      (cast_pow_toNat (by omega)).symm
    have hunit : (0 : ℚ) < 2 ^ (-guess) := by positivity
    rw [decide_eq_true_eq, ← mul_lt_mul_iff_left₀ hunit, mul_right_comm, hsplit, hpow,
      mul_comm _ (den : ℚ)]
    exact_mod_cast Iff.rfl

theorem rounds_ofRatio (negative : Bool) (hnum : 0 < num) (hden : 0 < den) :
    Rounds negative (num / den) (ofRatio negative num den) := by
  have hzero : (num = 0 || den = 0) = false := by simp; omega
  obtain ⟨hlow, hhigh⟩ := ratio_bounds hnum hden
  let guess : ℤ := (num.log2 : ℤ) - den.log2 - 52
  let e : ℤ := max (if (num : ℚ) / den < 2 ^ (guess + 52) then guess - 1 else guess) (-1074)
  have he : IsExponent ((num : ℚ) / den) e := by
    apply isExponent_max
    · split
      · exact hlow.le.trans' (zpow_le_zpow_right₀ one_le_two (by omega))
      · next h => exact not_lt.mp h
    · split
      · next h => exact h.trans_eq (by congr 1; omega)
      · exact hhigh.trans_eq (by congr 1; omega)
  refine ⟨e, scaled num den e, he, isNearest_scaled num hden e, ?_⟩
  have hexponent : max (if (if 0 ≤ guess then
        decide (num < den * Nat.pow 2 (guess + 52).toNat)
      else decide (num * Nat.pow 2 (-guess).toNat < den * Nat.pow 2 52)) = true then guess - 1
      else guess) (-1074) = e := by
    simp only [below_iff num hden, e]
  rw [ofRatio, hzero, if_neg Bool.false_ne_true]
  dsimp only
  rw [hexponent]
  generalize scaled num den e = m
  by_cases hm : m = Nat.pow 2 53
  · have hcarry : fieldsOf m e = fieldsOf (Nat.pow 2 52) (e + 1) := hm ▸ fieldsOf_carry he.least
    rw [if_pos hm, hcarry, ofFields_fieldsOf]
  · rw [if_neg hm, ofFields_fieldsOf]

end Ratio

section Near

variable {m : ℕ} {q : ℤ} {r : ℚ}

theorem two_zpow_add (q : ℤ) (k : ℕ) : (2 : ℚ) ^ (q + k) = 2 ^ q * 2 ^ k := by
  rw [zpow_add₀ two_ne_zero, zpow_natCast]

/-- Below the least significand the units are half as large. -/
theorem rounds_of_near_least (negative : Bool) {v : ℚ} (hq : -1074 < q) (hbelow : v < 2 ^ 52)
    (hnear : |v - 2 ^ 52| < 1 / 4) :
    Rounds negative (2 ^ q * v) (ofFields negative (fieldsOf (2 ^ 52) q)) := by
  have hunit : (0 : ℚ) < 2 ^ q := by positivity
  have hhalf (k : ℕ) : (2 : ℚ) ^ (q - 1 + (k + 1 : ℕ)) = 2 ^ q * 2 ^ k := by
    rw [← two_zpow_add]
    congr 1
    omega
  have hcarry : fieldsOf (2 ^ 52) q = fieldsOf (2 ^ 53) (q - 1) := by
    rw [fieldsOf_carry (by omega), sub_add_cancel]
  refine ⟨q - 1, 2 ^ 53, ⟨by omega, ?_, Or.inr ?_⟩, Or.inl ?_, by rw [hcarry]⟩
  · rw [show (53 : ℤ) = (52 + 1 : ℕ) from rfl, hhalf, mul_lt_mul_iff_right₀ hunit]
    exact hbelow
  · rw [show (52 : ℤ) = (51 + 1 : ℕ) from rfl, hhalf, mul_le_mul_iff_right₀ hunit]
    linarith [(abs_sub_lt_iff.mp hnear).2]
  · have hdouble : 2 ^ q * v / 2 ^ (q - 1) = 2 * v := by
      rw [zpow_sub_one₀ two_ne_zero]
      field_simp
    have hdistance : |2 * v - (2 ^ 53 : ℕ)| = 2 * |v - 2 ^ 52| := by
      rw [← abs_of_pos (two_pos : (0 : ℚ) < 2), ← abs_mul, abs_of_pos (two_pos : (0 : ℚ) < 2)]
      push_cast
      ring_nf
    rw [hdouble, hdistance]
    linarith

/-- What is closer to a number than half a unit in its last place is rounded to it. At the least
significand the next lower number is only half a unit away. -/
theorem rounds_of_near (negative : Bool) (hlt : m < 2 ^ 53) (hq : -1074 ≤ q)
    (hnormal : q = -1074 ∨ 2 ^ 52 ≤ m) (hnear : |r - m * 2 ^ q| * 2 ^ 54 < m * 2 ^ q) :
    Rounds negative r (ofFields negative (fieldsOf m q)) := by
  have hunit : (0 : ℚ) < 2 ^ q := by positivity
  obtain ⟨v, rfl⟩ : ∃ v, r = 2 ^ q * v := ⟨r / 2 ^ q, (mul_div_cancel₀ r hunit.ne').symm⟩
  have hv : |v - m| * 2 ^ 54 < m := by
    rw [mul_comm (m : ℚ), ← mul_sub, abs_mul, abs_of_pos hunit, mul_assoc] at hnear
    exact lt_of_mul_lt_mul_left hnear hunit.le
  have hm : (m : ℚ) ≤ 2 ^ 53 - 1 := by
    have : m + 1 ≤ 2 ^ 53 := hlt
    rw [le_sub_iff_add_le]
    exact_mod_cast this
  have hclose : |v - m| < 1 / 2 := by linarith
  obtain ⟨hbelow, habove⟩ := abs_sub_lt_iff.mp hclose
  have hupper : 2 ^ q * v < 2 ^ (q + 53) := by
    rw [show (53 : ℤ) = (53 : ℕ) from rfl, two_zpow_add, mul_lt_mul_iff_right₀ hunit]
    linarith
  by_cases hcase : q = -1074 ∨ (2 : ℚ) ^ 52 ≤ v
  · refine ⟨q, m, ⟨hq, hupper, hcase.imp_right fun h => ?_⟩, Or.inl ?_, rfl⟩
    · rw [show (52 : ℤ) = (52 : ℕ) from rfl, two_zpow_add, mul_le_mul_iff_right₀ hunit]
      exact h
    · rwa [mul_div_cancel_left₀ v hunit.ne']
  · -- Only the least significand has such numbers below it.
    obtain ⟨hleast, hv52⟩ := not_or.mp hcase
    have hm52 : m = 2 ^ 52 := by
      have hle : 2 ^ 52 ≤ m := hnormal.resolve_left hleast
      refine le_antisymm (not_lt.mp fun hgt => hv52 ?_) hle
      have : ((2 ^ 52 : ℕ) : ℚ) + 1 ≤ m := by exact_mod_cast hgt
      push_cast at this
      linarith
    subst hm52
    push_cast at hv
    exact rounds_of_near_least negative (by omega) (not_le.mp hv52) (by linarith)

end Near

section Bits

variable {x : Binary64} {m : ℕ} {q : ℤ}

/-- A finite number has a significand of at most 53 binary digits, and fewer only with the least
exponent. -/
theorem of_magnitude_eq (h : x.magnitude = .finite m q) : m < 2 ^ 53 ∧ -1074 ≤ q ∧ q ≤ 971 ∧
    (q = -1074 ∨ 2 ^ 52 ≤ m) ∧ fieldsOf m q = x.bits.toNat % 2 ^ 63 := by
  have hbits : x.bits.toNat < 2 ^ 64 := x.bits.toNat_lt
  simp only [magnitude, Nat.pow_eq] at h
  split_ifs at h
  · cases h
    refine ⟨by omega, by omega, by omega, Or.inl rfl, ?_⟩
    rw [fieldsOf, if_neg (by decide), if_pos (by omega)]
    omega
  · cases h
    refine ⟨by omega, by omega, by omega, Or.inr (by omega), ?_⟩
    rw [fieldsOf, if_neg (by omega), if_neg (by omega)]
    omega

theorem ofFields_of_bits (x : Binary64) : ofFields x.negative (x.bits.toNat % 2 ^ 63) = x := by
  have hbits : x.bits.toNat < 2 ^ 64 := x.bits.toNat_lt
  have hnat : (if x.negative = true then Nat.pow 2 63 + x.bits.toNat % 2 ^ 63
      else x.bits.toNat % 2 ^ 63) = x.bits.toNat := by
    simp only [negative, decide_eq_true_eq, Nat.pow_eq]
    split <;> omega
  rw [ofFields, hnat, UInt64.ofNat_toNat]

theorem toNat_bits_ofFields {fields : ℕ} (h : fields < 2 ^ 63) :
    (ofFields false fields).bits.toNat = fields := by
  rw [ofFields, if_neg Bool.false_ne_true, UInt64.toNat_ofNat', Nat.mod_eq_of_lt (by omega)]

theorem eq_zero_of_magnitude (h : x.magnitude = .finite 0 q) : x = zero x.negative := by
  obtain ⟨-, -, -, hnormal, hfields⟩ := of_magnitude_eq h
  have hq : q = -1074 := hnormal.resolve_right (by decide)
  have hzero : fieldsOf 0 q = 0 := by
    rw [fieldsOf, if_neg (by omega), if_pos (by decide)]
  rw [zero, ← hzero, hfields, ofFields_of_bits]

theorem eq_infinity_of_magnitude (h : x.magnitude = .infinite) : x = infinity x.negative := by
  have hbits : x.bits.toNat < 2 ^ 64 := x.bits.toNat_lt
  have hfields : x.bits.toNat % 2 ^ 63 = 2047 * 2 ^ 52 := by
    simp only [magnitude, Nat.pow_eq] at h
    split_ifs at h
    omega
  rw [infinity, Nat.pow_eq, ← hfields, ofFields_of_bits]

theorem fieldsOf_le (hm : m ≤ 2 ^ 53) : fieldsOf m q ≤ 2047 * 2 ^ 52 := by
  unfold fieldsOf
  split_ifs <;> omega

theorem fieldsOf_lt (hm : m ≤ 2 ^ 53) : fieldsOf m q < 2 ^ 63 :=
  (fieldsOf_le hm).trans_lt (by decide)

theorem magnitude_ofFields_ne (negative : Bool) {fields : ℕ} (h : fields ≤ 2047 * 2 ^ 52) :
    (ofFields negative fields).magnitude ≠ .notANumber := by
  have hbits : (ofFields negative fields).bits.toNat % 2 ^ 63 = fields := by
    rw [ofFields, UInt64.toNat_ofNat', Nat.pow_eq]
    split <;> omega
  intro hnone
  simp only [magnitude, Nat.pow_eq] at hnone
  split_ifs at hnone
  omega

theorem exists_dyadic? (h : x.magnitude = .finite m q) : ∃ n d, x.dyadic? = some (n, d) ∧ 0 < d ∧
    (n.natAbs : ℚ) / d = m * 2 ^ q := by
  have habs (negative : Bool) (n : ℤ) : (if negative then -n else n).natAbs = n.natAbs := by
    cases negative <;> simp
  rw [dyadic?, h]
  refine ⟨_, _, rfl, ?_, ?_⟩
  · split
    · exact one_pos
    · exact Nat.pow_pos two_pos
  · rw [habs]
    split
    · next hq =>
      have hunit : (2 : ℚ) ^ q = (Nat.pow 2 q.toNat : ℕ) := (cast_pow_toNat hq).symm
      rw [hunit]
      simp
    · next hq =>
      have hunit : (2 : ℚ) ^ q = ((Nat.pow 2 (-q).toNat : ℕ) : ℚ)⁻¹ := (cast_pow_toNat_neg hq).symm
      rw [hunit, Int.natAbs_natCast, div_eq_mul_inv]

end Bits

theorem IsNearest.le {v : ℚ} {n k : ℕ} (h : IsNearest v n) (hv : v < k) : n ≤ k := by
  have hn := (abs_sub_le_iff.mp h.abs_le).2
  have : (n : ℚ) < k + 1 := by linarith
  exact Nat.lt_add_one_iff.mp (by exact_mod_cast this)

theorem IsExponent.significand_le {r : ℚ} {e : ℤ} {m : ℕ} (he : IsExponent r e)
    (hm : IsNearest (r / 2 ^ e) m) : m ≤ 2 ^ 53 := by
  have hunit : (0 : ℚ) < 2 ^ e := by positivity
  refine hm.le ?_
  rw [div_lt_iff₀ hunit, mul_comm]
  refine he.lt.trans_eq ?_
  rw [zpow_add₀ two_ne_zero]
  rfl

theorem Rounds.of_magnitude {x y : Binary64} {r : ℚ} (h : Rounds false r y)
    (hbits : y.bits.toNat = x.bits.toNat % 2 ^ 63) : Rounds x.negative r x := by
  obtain ⟨e, m, he, hm, rfl⟩ := h
  rw [toNat_bits_ofFields (fieldsOf_lt (he.significand_le hm))] at hbits
  exact ⟨e, m, he, hm, by rw [hbits, ofFields_of_bits]⟩

theorem Rounds.magnitude_ne {negative : Bool} {r : ℚ} {x : Binary64} (h : Rounds negative r x) :
    x.magnitude ≠ .notANumber := by
  obtain ⟨e, m, he, hm, rfl⟩ := h
  exact magnitude_ofFields_ne negative (fieldsOf_le (he.significand_le hm))

end CodeAtlas.Binary64
