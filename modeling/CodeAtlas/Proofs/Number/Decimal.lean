import CodeAtlas.Number.Shortest
import CodeAtlas.Number.Decimal
import CodeAtlas.Proofs.Number.Rounding

/-! # Decimals of binary numbers

A decimal is rounded correctly, so decimals of one value denote one number. The shortest decimal of
a number is found with at most seventeen digits, and denotes the number.
-/

namespace CodeAtlas.Binary64

def digitCount (n : ℕ) : ℕ := (Nat.toDigits 10 n).length

theorem digitCount_pos (n : ℕ) : 0 < digitCount n := List.length_pos_iff.mpr Nat.toDigits_ne_nil

theorem lt_pow_digitCount (n : ℕ) : n < 10 ^ digitCount n :=
  (Nat.length_toDigits_le_iff (by decide) (digitCount_pos n)).mp le_rfl

theorem pow_digitCount_le {n : ℕ} (h : 0 < n) : 10 ^ (digitCount n - 1) ≤ n := by
  by_contra hlt
  rcases Nat.eq_zero_or_pos (digitCount n - 1) with h1 | h1
  · rw [h1] at hlt
    omega
  · have hle := (Nat.length_toDigits_le_iff (b := 10) (by decide) h1).mpr (not_le.mp hlt)
    rw [← digitCount] at hle
    omega

section Rounding

variable {digits : ℕ} {u : ℤ} (h : 0 < digits)

include h

/-- The order of a decimal is the exponent of the first power of ten above it. -/
theorem decimal_bounds : (10 : ℚ) ^ (u + digitCount digits - 1) ≤ digits * 10 ^ u ∧
    (digits : ℚ) * 10 ^ u < 10 ^ (u + digitCount digits) := by
  have hcount : 1 ≤ digitCount digits := digitCount_pos digits
  have hpos : (0 : ℚ) < 10 ^ u := by positivity
  constructor
  · have hle : ((10 ^ (digitCount digits - 1) : ℕ) : ℚ) ≤ digits := by
      exact_mod_cast pow_digitCount_le h
    calc (10 : ℚ) ^ (u + digitCount digits - 1)
        = ((10 ^ (digitCount digits - 1) : ℕ) : ℚ) * 10 ^ u := by
          rw [Nat.cast_pow, Nat.cast_ofNat, ← zpow_natCast, ← zpow_add₀ (by norm_num)]
          congr 1
          omega
      _ ≤ digits * 10 ^ u := by gcongr
  · have hlt : (digits : ℚ) < ((10 ^ digitCount digits : ℕ) : ℚ) := by
      exact_mod_cast lt_pow_digitCount digits
    calc (digits : ℚ) * 10 ^ u < ((10 ^ digitCount digits : ℕ) : ℚ) * 10 ^ u := by gcongr
      _ = 10 ^ (u + digitCount digits) := by
          rw [Nat.cast_pow, Nat.cast_ofNat, ← zpow_natCast, ← zpow_add₀ (by norm_num), add_comm]

theorem exists_ratio : ∃ num den : ℕ, 0 < num ∧ 0 < den ∧ (num : ℚ) / den = digits * 10 ^ u ∧
    ∀ negative, ofDecimal negative digits u =
      if 310 < u + digitCount digits then infinity negative
      else if u + digitCount digits < -330 then zero negative
      else ofRatio negative num den := by
  by_cases hu : 0 ≤ u
  · have hpow : (10 : ℚ) ^ u = (Nat.pow 10 u.toNat : ℕ) := (cast_pow_toNat hu).symm
    refine ⟨digits * Nat.pow 10 u.toNat, 1, Nat.mul_pos h (Nat.pow_pos (by decide)), one_pos,
      ?_, fun negative => ?_⟩
    · rw [hpow, Nat.cast_one, div_one, Nat.cast_mul]
    · rw [ofDecimal, if_neg h.ne']
      simp only [if_pos hu, digitCount]
      rfl
  · have hpow : (10 : ℚ) ^ u = ((Nat.pow 10 (-u).toNat : ℕ) : ℚ)⁻¹ :=
      (cast_pow_toNat_neg hu).symm
    refine ⟨digits, Nat.pow 10 (-u).toNat, h, Nat.pow_pos (by decide), ?_, fun negative => ?_⟩
    · rw [hpow, div_eq_mul_inv]
    · rw [ofDecimal, if_neg h.ne']
      simp only [if_neg hu, digitCount]
      rfl

theorem rounds_ofDecimal (negative : Bool) :
    Rounds negative (digits * 10 ^ u) (ofDecimal negative digits u) := by
  obtain ⟨num, den, hnum, hden, hratio, heq⟩ := exists_ratio (u := u) h
  obtain ⟨hlow, hhigh⟩ := decimal_bounds (u := u) h
  have hrounds := rounds_ofRatio negative hnum hden
  rw [hratio] at hrounds
  rw [heq]
  split
  · next hlarge =>
    obtain ⟨e, m, he, hm, -⟩ := hrounds
    refine ⟨e, m, he, hm, ?_⟩
    have hbig : 971 < e := by
      by_contra hle
      have hpow : (2 : ℚ) ^ (e + 53) ≤ 2 ^ (1024 : ℤ) := zpow_le_zpow_right₀ one_le_two (by omega)
      have hten : (10 : ℚ) ^ (310 : ℤ) ≤ 10 ^ (u + digitCount digits - 1) :=
        zpow_le_zpow_right₀ (by norm_num) (by omega)
      have hnumeric : (2 : ℚ) ^ (1024 : ℤ) ≤ 10 ^ (310 : ℤ) := by
        have : 2 ^ 1024 ≤ 10 ^ 310 := by decide +kernel
        exact_mod_cast this
      exact absurd he.lt (not_lt.mpr (hpow.trans (hnumeric.trans (hten.trans hlow))))
    rw [fieldsOf, if_pos hbig]
    rfl
  split
  · next hsmall =>
    obtain ⟨e, m, he, hm, -⟩ := hrounds
    have hten : (10 : ℚ) ^ (u + digitCount digits) ≤ 10 ^ (-331 : ℤ) :=
      zpow_le_zpow_right₀ (by norm_num) (by omega)
    have hnumeric : (10 : ℚ) ^ (-331 : ℤ) ≤ 2 ^ (-1075 : ℤ) := by
      have : 2 ^ 1075 ≤ 10 ^ 331 := by decide +kernel
      rw [zpow_neg, zpow_neg, inv_le_inv₀ (by positivity) (by positivity)]
      exact_mod_cast this
    have hless := hhigh.trans_le (hten.trans hnumeric)
    obtain rfl : e = -1074 := by
      refine he.le.resolve_right fun hle => ?_
      have hpow : (2 : ℚ) ^ (-1075 : ℤ) ≤ 2 ^ (e + 52) :=
        zpow_le_zpow_right₀ one_le_two (by linarith [he.least])
      exact absurd hless (not_lt.mpr (hpow.trans hle))
    have hnone : IsNearest (digits * 10 ^ u / 2 ^ (-1074 : ℤ)) 0 := by
      have hpart : (digits : ℚ) * 10 ^ u / 2 ^ (-1074 : ℤ) < 1 / 2 := by
        have hunit : (2 : ℚ) ^ (-1075 : ℤ) = 1 / 2 * 2 ^ (-1074 : ℤ) := by
          rw [show (-1075 : ℤ) = -1074 - 1 from rfl, zpow_sub_one₀ two_ne_zero, mul_comm, one_div]
        rw [div_lt_iff₀ (by positivity), ← hunit]
        exact hless
      simpa using isNearest_below (n := 0) (by positivity) (Or.inl hpart)
    refine ⟨-1074, 0, he, hnone, ?_⟩
    rfl
  · exact hrounds

end Rounding

/-- Decimals of one value denote one number. -/
theorem ofDecimal_congr (negative : Bool) {a b : ℕ} {u w : ℤ}
    (h : (a : ℚ) * 10 ^ u = b * 10 ^ w) : ofDecimal negative a u = ofDecimal negative b w := by
  have hu : (10 : ℚ) ^ u ≠ 0 := by positivity
  have hw : (10 : ℚ) ^ w ≠ 0 := by positivity
  have hzero : a = 0 ↔ b = 0 := by
    rw [← Nat.cast_eq_zero (R := ℚ), ← Nat.cast_eq_zero (R := ℚ) (n := b),
      ← mul_eq_zero_iff_right hu, h, mul_eq_zero_iff_right hw]
  rcases Nat.eq_zero_or_pos a with ha | ha
  · rw [ofDecimal, ofDecimal, if_pos ha, if_pos (hzero.mp ha)]
  · have hb : 0 < b := Nat.pos_of_ne_zero (mt hzero.mpr ha.ne')
    have hrounds := rounds_ofDecimal (u := u) ha negative
    rw [h] at hrounds
    exact hrounds.unique (rounds_ofDecimal hb negative)

theorem magnitude_ofDecimal_ne (negative : Bool) (digits : ℕ) (unit : ℤ) :
    (ofDecimal negative digits unit).magnitude ≠ .notANumber := by
  rcases Nat.eq_zero_or_pos digits with hzero | hpos
  · rw [ofDecimal, if_pos hzero]
    exact magnitude_ofFields_ne negative (Nat.zero_le _)
  · exact (rounds_ofDecimal hpos negative).magnitude_ne

def ReadsBack (x : Binary64) (d : Decimal) : Prop :=
  (ofDecimal false d.digits d.exponent).bits.toNat = x.bits.toNat % 2 ^ 63

/-- Some decimal of so many digits next to the fraction is read as the number. -/
def Suffices (x : Binary64) (num den : ℕ) (lead : ℤ) (count : ℕ) : Prop :=
  ∃ d, nearestReadingBack? x num den count lead = some d

section Shortest

variable {x : Binary64} {num den count : ℕ} {lead : ℤ}

theorem readsBack_of_nearestReadingBack? {d : Decimal}
    (h : nearestReadingBack? x num den count lead = some d) : ReadsBack x d := by
  simp only [nearestReadingBack?] at h
  split at h
  · next hlow hhigh =>
    cases h
    split
    · exact beq_iff_eq.mp hlow
    · exact beq_iff_eq.mp hhigh
  · next hlow _ =>
    cases h
    exact beq_iff_eq.mp hlow
  · next _ hhigh =>
    cases h
    exact beq_iff_eq.mp hhigh
  · cases h

theorem suffices_of_readsBack {unit : ℤ} {a b : ℕ} (hunit : lead - count + 1 = unit)
    (hunits : inUnits num den unit = (a, b))
    (h : ReadsBack x ⟨a / b, unit⟩ ∨ ReadsBack x ⟨a / b + 1, unit⟩) :
    Suffices x num den lead count := by
  rw [Suffices]
  cases hd : nearestReadingBack? x num den count lead with
  | some d => exact ⟨d, rfl⟩
  | none =>
    simp only [nearestReadingBack?, hunit, hunits] at hd
    split at hd
    · cases hd
    · cases hd
    · cases hd
    · next hlow hhigh =>
      rcases h with h | h
      · exact absurd h (beq_eq_false_iff_ne.mp hlow)
      · exact absurd h (beq_eq_false_iff_ne.mp hhigh)

/-- If a number of digits suffices then the first one that does is found. -/
theorem readsBack_shortestFrom {fuel : ℕ}
    (h : ∃ k, count ≤ k ∧ k < count + fuel ∧ Suffices x num den lead k) :
    ReadsBack x (shortestFrom x num den lead fuel count) := by
  induction fuel generalizing count with
  | zero =>
    obtain ⟨k, hle, hlt, -⟩ := h
    omega
  | succ fuel ih =>
    rw [shortestFrom]
    cases hd : nearestReadingBack? x num den count lead with
    | some d => exact readsBack_of_nearestReadingBack? hd
    | none =>
      obtain ⟨k, hle, hlt, d, hk⟩ := h
      have hne : k ≠ count := by
        rintro rfl
        rw [hd] at hk
        cases hk
      exact ih ⟨k, by omega, by omega, d, hk⟩

theorem inUnits_eq (num : ℕ) (hden : 0 < den) (unit : ℤ) : 0 < (inUnits num den unit).2 ∧
    ((inUnits num den unit).1 : ℚ) / (inUnits num den unit).2 = num / den / 10 ^ unit := by
  unfold inUnits
  split
  · next hunit =>
    have hpow : (10 : ℚ) ^ unit = (Nat.pow 10 unit.toNat : ℕ) := (cast_pow_toNat hunit).symm
    refine ⟨Nat.mul_pos hden (Nat.pow_pos (by decide)), ?_⟩
    rw [hpow, div_div, Nat.cast_mul]
  · next hunit =>
    have hpow : (10 : ℚ) ^ unit = ((Nat.pow 10 (-unit).toNat : ℕ) : ℚ)⁻¹ :=
      (cast_pow_toNat_neg hunit).symm
    refine ⟨hden, ?_⟩
    rw [hpow, div_inv_eq_mul, div_mul_eq_mul_div, Nat.cast_mul]

theorem leadingExponent_of_le (h : den ≤ num) :
    leadingExponent num den = (digitCount (num / den) : ℤ) - 1 := if_pos h

theorem leadingExponent_of_not_le (h : ¬ den ≤ num) : leadingExponent num den =
    if num * Nat.pow 10 (digitCount (den / num) - 1) = den then -((digitCount (den / num) : ℤ) - 1)
    else -(digitCount (den / num) : ℤ) := if_neg h

theorem cast_digitCount_sub_one (n : ℕ) : (digitCount n : ℤ) - 1 = (digitCount n - 1 : ℕ) := by
  have := digitCount_pos n
  omega

/-- The leading digit of a fraction has at least the exponent that is computed. -/
theorem pow_leadingExponent_le (hnum : 0 < num) (hden : 0 < den) :
    (10 : ℚ) ^ leadingExponent num den ≤ num / den := by
  have hpos : (0 : ℚ) < den := by exact_mod_cast hden
  rw [le_div_iff₀ hpos]
  by_cases hle : den ≤ num
  · have hmul : 10 ^ (digitCount (num / den) - 1) * den ≤ num :=
      (Nat.mul_le_mul_right den (pow_digitCount_le (Nat.div_pos hle hden))).trans
        (Nat.div_mul_le_self num den)
    rw [leadingExponent_of_le hle, cast_digitCount_sub_one, zpow_natCast]
    exact_mod_cast hmul
  rw [leadingExponent_of_not_le hle]
  split
  · next hexact =>
    rw [cast_digitCount_sub_one, zpow_neg, zpow_natCast, inv_mul_le_iff₀ (by positivity), mul_comm]
    rw [Nat.pow_eq] at hexact
    exact_mod_cast hexact.ge
  · have hlt : den < 10 ^ digitCount (den / num) * num :=
      (Nat.div_lt_iff_lt_mul hnum).mp (lt_pow_digitCount (den / num))
    rw [zpow_neg, zpow_natCast, inv_mul_le_iff₀ (by positivity)]
    exact_mod_cast hlt.le

/-- A decimal closer than half a unit of the last binary digit is read as the number. -/
theorem readsBack_of_near {m : ℕ} {q : ℤ} (hx : x.magnitude = .finite m q) {d : Decimal}
    (hnear : |(d.digits : ℚ) * 10 ^ d.exponent - m * 2 ^ q| * 2 ^ 54 < m * 2 ^ q) :
    ReadsBack x d := by
  obtain ⟨hlt, hq, -, hnormal, hfields⟩ := of_magnitude_eq hx
  have hunit : (0 : ℚ) < 10 ^ d.exponent := by positivity
  have hpos : 0 < d.digits := by
    by_contra hzero
    rw [Nat.eq_zero_of_not_pos hzero, Nat.cast_zero, zero_mul, zero_sub, abs_neg, abs_of_nonneg
      (by positivity)] at hnear
    have : (0 : ℚ) ≤ m * 2 ^ q := by positivity
    linarith
  have heq := (rounds_ofDecimal hpos false).unique (rounds_of_near false hlt hq hnormal hnear)
  rw [ReadsBack, heq, toNat_bits_ofFields (fieldsOf_lt hlt.le), hfields]

/-- Seventeen digits suffice: half a unit of the last one is less than half a unit of the last
binary digit. -/
theorem suffices_seventeen {m : ℕ} {q : ℤ} (hx : x.magnitude = .finite m q)
    (hden : 0 < den) (hratio : (num : ℚ) / den = m * 2 ^ q)
    (hlead : (10 : ℚ) ^ lead ≤ num / den) : Suffices x num den lead 17 := by
  let unit : ℤ := lead - (17 : ℕ) + 1
  obtain ⟨hb, hquotient⟩ := inUnits_eq num hden unit
  generalize hunits : inUnits num den unit = units at hb hquotient
  obtain ⟨a, b⟩ := units
  have hpos : (0 : ℚ) < 10 ^ unit := by positivity
  have hbpos : (0 : ℚ) < b := by exact_mod_cast hb
  have hscale : (10 : ℚ) ^ unit * 10 ^ 16 ≤ m * 2 ^ q := by
    rw [← hratio]
    refine le_trans (le_of_eq ?_) hlead
    rw [← zpow_natCast, ← zpow_add₀ (by norm_num)]
    congr 1
    omega
  have hvalue : (m : ℚ) * 2 ^ q = ((a / b : ℕ) + (a % b : ℕ) / b) * 10 ^ unit := by
    rw [← hratio, ← div_eq_floor_add a hb, hquotient, div_mul_cancel₀ _ hpos.ne']
  have hpart : ((a % b : ℕ) : ℚ) / b < 1 :=
    (div_lt_one hbpos).mpr (by exact_mod_cast Nat.mod_lt a hb)
  have hnonneg : (0 : ℚ) ≤ (a % b : ℕ) / b := by positivity
  generalize ((a % b : ℕ) : ℚ) / b = part at hvalue hpart hnonneg
  -- One of the two neighbours is at most half a unit away.
  have hnear : ReadsBack x ⟨a / b, unit⟩ ∨ ReadsBack x ⟨a / b + 1, unit⟩ := by
    have hclose {distance : ℚ} (h : distance ≤ 1 / 2) :
        distance * 10 ^ unit * 2 ^ 54 < m * 2 ^ q := by
      have hle : distance * 10 ^ unit ≤ 1 / 2 * 10 ^ unit := by gcongr
      linarith
    rcases le_total part (1 / 2) with hhalf | hhalf
    · left
      refine readsBack_of_near hx ?_
      have hdistance : |((a / b : ℕ) : ℚ) * 10 ^ unit - m * 2 ^ q| = part * 10 ^ unit := by
        rw [hvalue, ← sub_mul, abs_mul, abs_of_pos hpos, sub_add_cancel_left, abs_neg,
          abs_of_nonneg hnonneg]
      exact hdistance ▸ hclose hhalf
    · right
      refine readsBack_of_near hx ?_
      have hdistance : |((a / b + 1 : ℕ) : ℚ) * 10 ^ unit - m * 2 ^ q| =
          (1 - part) * 10 ^ unit := by
        rw [hvalue, ← sub_mul, abs_mul, abs_of_pos hpos, Nat.cast_add_one,
          add_sub_add_left_eq_sub, abs_of_pos (by linarith)]
      exact hdistance ▸ hclose (by linarith)
  exact suffices_of_readsBack rfl hunits hnear

/-- The shortest decimal of a finite number other than zero denotes it. -/
theorem ofDecimal_shortest {m : ℕ} {q : ℤ} (hx : x.magnitude = .finite m q) (hm : 0 < m) :
    0 < x.shortest.digits ∧ ofDecimal x.negative x.shortest.digits x.shortest.exponent = x := by
  obtain ⟨n, d, hdyadic, hd, hratio⟩ := exists_dyadic? hx
  obtain ⟨hlt, hq, hq', -, hfields⟩ := of_magnitude_eq hx
  have hn : n ≠ 0 := by
    rintro rfl
    have hpos : (0 : ℚ) < m * 2 ^ q := by positivity
    rw [← hratio] at hpos
    simp at hpos
  have hshortest : x.shortest = shortestFrom x n.natAbs d (leadingExponent n.natAbs d) 17 1 := by
    simp only [shortest, hdyadic, if_neg hn]
  have hreads : ReadsBack x x.shortest := by
    rw [hshortest]
    exact readsBack_shortestFrom ⟨17, by decide, by decide, suffices_seventeen hx hd hratio
      (pow_leadingExponent_le (Int.natAbs_pos.mpr hn) hd)⟩
  have hdigits : 0 < x.shortest.digits := by
    by_contra hzero
    have hfields0 : fieldsOf m q ≠ 0 := by
      unfold fieldsOf
      split_ifs <;> omega
    rw [ReadsBack, Nat.eq_zero_of_not_pos hzero, ← hfields] at hreads
    exact hfields0 hreads.symm
  have hrounds := (rounds_ofDecimal (u := x.shortest.exponent) hdigits false).of_magnitude hreads
  exact ⟨hdigits, (rounds_ofDecimal hdigits x.negative).unique hrounds⟩

end Shortest

end CodeAtlas.Binary64
