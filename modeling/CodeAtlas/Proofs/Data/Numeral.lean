import Mathlib.Data.List.TakeWhile
import CodeAtlas.Data.Json.Printer
import CodeAtlas.Data.Json.Reader
import CodeAtlas.Proofs.Number.Decimal

/-! # Reading printed numbers

An integer is printed with its digits, and a binary number with the digits of its shortest decimal,
in one of several notations. What is printed is read as the number.
-/

namespace CodeAtlas.Json

open Binary64 (FloatFormat ofDecimal stripZeros)

/-- Decimal digits that begin with zero only if they are no more. -/
structure IsWhole (ds : List Char) : Prop where
  ne_nil : ds ≠ []
  digits : ∀ c ∈ ds, c.isDigit = true
  head : ds.head? = some '0' → ds = ['0']

theorem isWhole_zero : IsWhole ['0'] :=
  ⟨by simp, List.forall_mem_singleton.mpr rfl, fun _ => rfl⟩

/-- What can follow a number: it does not make the number longer. -/
def EndsNumber (rest : List Char) : Prop :=
  ∀ c ∈ rest.head?, c.isDigit = false ∧ c ≠ '.' ∧ c ≠ 'e' ∧ c ≠ 'E'

def EndsDigits (rest : List Char) : Prop := ∀ c ∈ rest.head?, c.isDigit = false

section Parts

variable {limit : Option ℕ} {ds rest : List Char}

theorem EndsNumber.endsDigits (h : EndsNumber rest) : EndsDigits rest := fun c hc => (h c hc).1

theorem takeWhile_digits (hds : ∀ c ∈ ds, c.isDigit = true) (hrest : EndsDigits rest) :
    (ds ++ rest).takeWhile Char.isDigit = ds := by
  have hstop : rest.takeWhile Char.isDigit = [] := by
    cases rest with
    | nil => rfl
    | cons c rest => simp [hrest c rfl]
  rw [List.takeWhile_append_of_pos hds, hstop, List.append_nil]

theorem dropWhile_digits (hds : ∀ c ∈ ds, c.isDigit = true) (hrest : EndsDigits rest) :
    (ds ++ rest).dropWhile Char.isDigit = rest := by
  have h := List.takeWhile_append_dropWhile (p := Char.isDigit) (l := ds ++ rest)
  rw [takeWhile_digits hds hrest] at h
  exact List.append_cancel_left h

theorem readFraction_digits (hne : ds ≠ []) (hds : ∀ c ∈ ds, c.isDigit = true)
    (hrest : EndsDigits rest) : readFraction ('.' :: (ds ++ rest)) = some (ds, rest) := by
  rw [readFraction, takeWhile_digits hds hrest, dropWhile_digits hds hrest,
    if_neg (by simpa using hne)]

theorem readExponent_digits (hne : ds ≠ []) (hds : ∀ c ∈ ds, c.isDigit = true)
    (hrest : EndsDigits rest) (negative : Bool) :
    readExponent ('e' :: (if negative then '-' else '+') :: (ds ++ rest)) =
      some (if negative then -(naturalOf ds : ℤ) else naturalOf ds, rest) := by
  cases negative with
  | true => simp [readExponent, takeWhile_digits hds hrest, dropWhile_digits hds hrest, hne]
  | false => simp [readExponent, takeWhile_digits hds hrest, dropWhile_digits hds hrest, hne]

theorem EndsNumber.readFraction_eq (h : EndsNumber rest) : readFraction rest = none := by
  unfold readFraction
  split
  · exact absurd rfl (h '.' rfl).2.1
  · rfl

theorem EndsNumber.readExponent_eq (h : EndsNumber rest) : readExponent rest = none := by
  cases rest with
  | nil => rfl
  | cons c rest =>
    obtain ⟨-, -, he, hE⟩ := h c rfl
    simp [readExponent, he, hE]

theorem readNumber_whole (hds : IsWhole ds) (hrest : EndsDigits rest) (negative : Bool) :
    readNumber limit negative (ds ++ rest) =
      let fraction := readFraction rest
      let afterFraction := (fraction.map (·.2)).getD rest
      let exponent := readExponent afterFraction
      if fraction.isNone && exponent.isNone then
        if limit.any (· < ds.length) then .error .longNumeral
        else .ok (.int (if negative then -(naturalOf ds : ℤ) else naturalOf ds), rest)
      else
        let places := (fraction.map (·.1)).getD []
        .ok (.float (ofDecimal negative (naturalOf (ds ++ places))
          ((exponent.getD (0, afterFraction)).1 - places.length)),
          (exponent.getD (0, afterFraction)).2) := by
  have hne : ds.isEmpty = false := by simpa using hds.ne_nil
  unfold readNumber
  split
  · next tail heq =>
    obtain ⟨d, ds', rfl⟩ := List.exists_cons_of_ne_nil hds.ne_nil
    obtain ⟨rfl, htail⟩ := List.cons.inj heq
    obtain ⟨-, rfl⟩ := List.cons.inj (hds.head rfl)
    rfl
  · simp only [takeWhile_digits hds.digits hrest, hne, List.drop_left]
    rfl

theorem endsDigits_cons {c : Char} (hc : c.isDigit = false) (cs : List Char) :
    EndsDigits (c :: cs) := by
  rintro d hd
  obtain rfl : c = d := by simpa using hd
  exact hc

end Parts

theorem head?_toDigits_ne {n : ℕ} (hn : n ≠ 0) : (Nat.toDigits 10 n).head? ≠ some '0' := by
  induction n using Nat.strongRecOn with
  | ind n ih =>
    rw [Nat.toDigits_eq_if (by decide)]
    split
    · next h =>
      have hdigit : ∀ d < 10, d ≠ 0 → Nat.digitChar d ≠ '0' := by decide
      simpa using hdigit n h hn
    · next h =>
      have hne : Nat.toDigits 10 (n / 10) ≠ [] := Nat.toDigits_ne_nil
      rw [List.head?_append_of_ne_nil _ hne]
      exact ih (n / 10) (by omega) (by omega)

/-- The digits of a number are within a limit. -/
def Fits (limit : Option ℕ) (n : ℕ) : Prop := ∀ k ∈ limit, (Nat.toDigits 10 n).length ≤ k

theorem naturalOf_toDigits (n : ℕ) : naturalOf (Nat.toDigits 10 n) = n := by
  rw [naturalOf, ← Nat.ofDigitChars_eq_foldl, Nat.ofDigitChars_toDigits (by decide) (by decide)]

theorem isDigit_of_mem_toDigits (n : ℕ) : ∀ c ∈ Nat.toDigits 10 n, c.isDigit = true := fun _ hc =>
  Nat.isDigit_of_mem_toDigits (by decide) (by decide) hc

theorem isWhole_toDigits (n : ℕ) : IsWhole (Nat.toDigits 10 n) := by
  refine ⟨Nat.toDigits_ne_nil, isDigit_of_mem_toDigits n, fun h => ?_⟩
  by_cases h0 : n = 0
  · rw [h0]
    rfl
  · exact absurd h (head?_toDigits_ne h0)

theorem readNumber_toDigits {limit : Option ℕ} {n : ℕ} (hn : Fits limit n) (negative : Bool)
    {rest : List Char} (hrest : EndsNumber rest) :
    readNumber limit negative (Nat.toDigits 10 n ++ rest) =
      .ok (.int (if negative then -n else n), rest) := by
  have hlimit : limit.any (· < (Nat.toDigits 10 n).length) = false := by
    cases limit with
    | none => rfl
    | some k => simpa using hn k rfl
  rw [readNumber_whole (isWhole_toDigits n) hrest.endsDigits]
  simp [hrest.readFraction_eq, hrest.readExponent_eq, hlimit, naturalOf_toDigits]

theorem toList_toString (n : ℤ) :
    (toString n).toList = (if n < 0 then ['-'] else []) ++ Nat.toDigits 10 n.natAbs := by
  cases n with
  | ofNat n =>
    have hn : ¬ Int.ofNat n < 0 := Int.not_lt.mpr (Int.natCast_nonneg n)
    have htext : toString (Int.ofNat n) = toString n := rfl
    rw [if_neg hn, htext, Nat.toString_eq_ofList_toDigits, String.toList_ofList]
    rfl
  | negSucc n =>
    have htext : toString (Int.negSucc n) = "-" ++ toString (n + 1) := rfl
    rw [if_pos (Int.negSucc_lt_zero n), htext, Nat.toString_eq_ofList_toDigits,
      String.toList_append, String.toList_ofList]
    simp

theorem exists_toList_toString (n : ℤ) :
    ∃ c cs, (toString n).toList = c :: cs ∧ (c = '-' ∨ c.isDigit = true) := by
  rw [toList_toString]
  by_cases hn : n < 0
  · exact ⟨'-', _, by rw [if_pos hn]; rfl, Or.inl rfl⟩
  · rw [if_neg hn, List.nil_append]
    obtain ⟨d, ds, hds⟩ :=
      List.exists_cons_of_ne_nil (Nat.toDigits_ne_nil (b := 10) (n := n.natAbs))
    refine ⟨d, ds, hds, Or.inr ?_⟩
    exact Nat.isDigit_of_mem_toDigits (by decide) (by decide) (hds ▸ List.mem_cons_self)

/-- No word that is a value starts as a number does. -/
theorem readKeyword?_eq_none {c : Char} (hc : c.isDigit = true) (cs : List Char) :
    readKeyword? (c :: cs) = none ∧ readKeyword? ('-' :: c :: cs) = none := by
  have hapart : c ≠ 'n' ∧ c ≠ 't' ∧ c ≠ 'f' ∧ c ≠ 'N' ∧ c ≠ 'I' := by
    refine ⟨?_, ?_, ?_, ?_, ?_⟩ <;> (rintro rfl; revert hc; decide)
  obtain ⟨hn, ht, hf, hN, hI⟩ := hapart
  have htexts : "null".toList = ['n', 'u', 'l', 'l'] ∧ "true".toList = ['t', 'r', 'u', 'e'] ∧
      "false".toList = ['f', 'a', 'l', 's', 'e'] ∧ "NaN".toList = ['N', 'a', 'N'] ∧
      "Infinity".toList = 'I' :: "nfinity".toList ∧
      "-Infinity".toList = '-' :: 'I' :: "nfinity".toList := by decide
  have hd : c ≠ '-' := by
    rintro rfl
    revert hc
    decide
  constructor <;>
    simp [readKeyword?, keywords, htexts, hn.symm, ht.symm, hf.symm, hN.symm,
      hI.symm, hd.symm]

theorem readScalar_signed {limit : Option ℕ} {negative : Bool} {c : Char} {cs : List Char}
    {r : Except Fault (Scalar × List Char)} (hc : c.isDigit = true)
    (h : readNumber limit negative (c :: cs) = r) :
    readScalar limit ((if negative then ['-'] else []) ++ c :: cs) = r := by
  obtain ⟨hkeyword, hkeyword'⟩ := readKeyword?_eq_none hc cs
  cases negative with
  | true =>
    rw [if_pos rfl, List.singleton_append, readScalar, hkeyword']
    exact h
  | false =>
    rw [if_neg Bool.false_ne_true, List.nil_append, readScalar, hkeyword]
    · exact h
    · rintro tail heq
      obtain ⟨rfl, -⟩ := List.cons.inj heq
      revert hc
      decide

theorem readScalar_toString {limit : Option ℕ} {n : ℤ} (hn : Fits limit n.natAbs)
    {rest : List Char} (hrest : EndsNumber rest) :
    readScalar limit ((toString n).toList ++ rest) = .ok (.int n, rest) := by
  have hnumber := readNumber_toDigits hn (decide (n < 0)) hrest
  have hvalue : (if decide (n < 0) = true then -(n.natAbs : ℤ) else n.natAbs) = n := by
    simp only [decide_eq_true_eq]
    split
    · omega
    · omega
  obtain ⟨d, ds, hds⟩ := List.exists_cons_of_ne_nil (isWhole_toDigits n.natAbs).ne_nil
  have hd : d.isDigit = true := isDigit_of_mem_toDigits n.natAbs d (hds ▸ List.mem_cons_self)
  rw [hvalue, hds, List.cons_append] at hnumber
  have hread := readScalar_signed hd hnumber
  simp only [decide_eq_true_eq] at hread
  rw [toList_toString, List.append_assoc, hds]
  exact hread

/-- The number with these digits, the point standing after so many of them. -/
def decimalValue (ds : List Char) (point : ℤ) : ℚ := naturalOf ds * 10 ^ (point - ds.length)

theorem naturalOf_append (ds es : List Char) :
    naturalOf (ds ++ es) = naturalOf ds * 10 ^ es.length + naturalOf es := by
  induction es using List.reverseRecOn with
  | nil => simp [naturalOf]
  | append_singleton es e ih =>
    have hlast (cs : List Char) :
        naturalOf (cs ++ [e]) = 10 * naturalOf cs + (e.toNat - '0'.toNat) := by
      simp [naturalOf, List.foldl_append]
    rw [← List.append_assoc, hlast, hlast, ih, List.length_append, List.length_singleton, pow_succ]
    ring

theorem naturalOf_zeros (k : ℕ) : naturalOf (List.replicate k '0') = 0 := by
  induction k with
  | zero => rfl
  | succ k ih =>
    have hzero : naturalOf ['0'] = 0 := rfl
    rw [List.replicate_succ, ← List.singleton_append, naturalOf_append, ih, hzero, Nat.zero_mul]

theorem decimalValue_append_zeros (ds : List Char) (k : ℕ) (point : ℤ) :
    decimalValue (ds ++ List.replicate k '0') point = decimalValue ds point := by
  have hsplit : (10 : ℚ) ^ (point - ds.length) = 10 ^ k * 10 ^ (point - (ds.length + k)) := by
    rw [← zpow_natCast, ← zpow_add₀ (by norm_num)]
    congr 1
    ring
  rw [decimalValue, decimalValue, naturalOf_append, naturalOf_zeros, List.length_append,
    List.length_replicate, hsplit]
  push_cast
  ring

theorem decimalValue_zeros_append (ds : List Char) (k : ℕ) (point : ℤ) :
    decimalValue (List.replicate k '0' ++ ds) point = decimalValue ds (point - k) := by
  rw [decimalValue, decimalValue, naturalOf_append, naturalOf_zeros, List.length_append,
    List.length_replicate]
  congr 2
  · ring
  · push_cast
    ring

theorem decimalValue_toDigits (n : ℕ) (e : ℤ) :
    decimalValue (Nat.toDigits 10 n) (e + (Nat.toDigits 10 n).length) = n * 10 ^ e := by
  rw [decimalValue, naturalOf_toDigits, add_sub_cancel_right]

theorem exists_stripZeros_append (ds : List Char) :
    ∃ k, ds = stripZeros ds ++ List.replicate k '0' := by
  let zeros := ds.reverse.takeWhile (· == '0')
  have hzeros : zeros = List.replicate zeros.length '0' :=
    List.eq_replicate_of_mem fun c hc => by simpa using List.mem_takeWhile_imp hc
  have hsplit : ds.reverse = zeros ++ ds.reverse.dropWhile (· == '0') :=
    List.takeWhile_append_dropWhile.symm
  refine ⟨zeros.length, ?_⟩
  rw [← List.reverse_replicate, ← hzeros, stripZeros, ← List.reverse_append, ← hsplit,
    List.reverse_reverse]

section Points

variable {ds rest : List Char}

theorem readNumber_point (limit : Option ℕ) (hds : IsWhole ds) {places : List Char}
    (hne : places ≠ []) (hplaces : ∀ c ∈ places, c.isDigit = true) (hrest : EndsNumber rest)
    (negative : Bool) :
    readNumber limit negative (ds ++ '.' :: (places ++ rest)) =
      .ok (.float (ofDecimal negative (naturalOf (ds ++ places)) (-places.length)), rest) := by
  rw [readNumber_whole hds (endsDigits_cons (by decide) _)]
  simp [readFraction_digits hne hplaces hrest.endsDigits, hrest.readExponent_eq]

theorem readNumber_exponent (limit : Option ℕ) (hds : IsWhole ds) {places shown : List Char}
    (hplaces : ∀ c ∈ places, c.isDigit = true) (hne : shown ≠ [])
    (hshown : ∀ c ∈ shown, c.isDigit = true) (hrest : EndsDigits rest) (negative down : Bool) :
    readNumber limit negative (ds ++ ((if places = [] then [] else '.' :: places) ++
        'e' :: (if down then '-' else '+') :: (shown ++ rest))) =
      .ok (.float (ofDecimal negative (naturalOf (ds ++ places))
        ((if down then -(naturalOf shown : ℤ) else naturalOf shown) - places.length)), rest) := by
  have hexponent := readExponent_digits hne hshown hrest down
  have he : EndsDigits ('e' :: (if down then '-' else '+') :: (shown ++ rest)) :=
    endsDigits_cons (by decide) _
  by_cases hp : places = []
  · subst hp
    rw [if_pos rfl, List.nil_append, readNumber_whole hds he]
    simp [readFraction, hexponent]
  · rw [if_neg hp, List.cons_append, readNumber_whole hds (endsDigits_cons (by decide) _)]
    simp [readFraction_digits hp hplaces he, hexponent]

end Points

structure AreSignificant (ds : List Char) : Prop where
  ne_nil : ds ≠ []
  digits : ∀ c ∈ ds, c.isDigit = true
  head : ds.head? ≠ some '0'

section Unsigned

variable {ds rest : List Char} (hds : AreSignificant ds)

include hds

theorem AreSignificant.isWhole_append {es : List Char} (hes : ∀ c ∈ es, c.isDigit = true) :
    IsWhole (ds ++ es) := by
  refine ⟨by simp [hds.ne_nil], List.forall_mem_append.mpr ⟨hds.digits, hes⟩, fun h => ?_⟩
  rw [List.head?_append_of_ne_nil _ hds.ne_nil] at h
  exact absurd h hds.head

theorem AreSignificant.isWhole_take {k : ℕ} (hk : 0 < k) : IsWhole (ds.take k) := by
  obtain ⟨d, ds', rfl⟩ := List.exists_cons_of_ne_nil hds.ne_nil
  obtain ⟨k, rfl⟩ : ∃ j, k = j + 1 := ⟨k - 1, by omega⟩
  rw [List.take_succ_cons]
  refine ⟨by simp, fun c hc => hds.digits c ?_, fun h => absurd h hds.head⟩
  rcases List.mem_cons.mp hc with rfl | hc
  · exact List.mem_cons_self
  · exact List.mem_cons_of_mem _ (List.mem_of_mem_take hc)

theorem AreSignificant.length_pos : 0 < ds.length := List.length_pos_iff.mpr hds.ne_nil

end Unsigned

theorem mul_pow_eq_decimalValue (ds places : List Char) (shift : ℤ) :
    (naturalOf (ds ++ places) : ℚ) * 10 ^ (shift - places.length) =
      decimalValue (ds ++ places) (ds.length + shift) := by
  rw [decimalValue, List.length_append]
  congr 2
  push_cast
  ring

theorem mul_pow_neg_eq_decimalValue (ds places : List Char) :
    (naturalOf (ds ++ places) : ℚ) * 10 ^ (-places.length : ℤ) =
      decimalValue (ds ++ places) ds.length := by
  simpa using mul_pow_eq_decimalValue ds places 0

def exponentDigits (n : ℕ) : List Char :=
  if (Nat.toDigits 10 n).length < 2 then '0' :: Nat.toDigits 10 n else Nat.toDigits 10 n

theorem exponentDigits_spec (n : ℕ) : exponentDigits n ≠ [] ∧
    (∀ c ∈ exponentDigits n, c.isDigit = true) ∧ naturalOf (exponentDigits n) = n := by
  have hdigits : ∀ c ∈ Nat.toDigits 10 n, c.isDigit = true := fun c hc =>
    Nat.isDigit_of_mem_toDigits (by decide) (by decide) hc
  unfold exponentDigits
  split
  · refine ⟨by simp, List.forall_mem_cons.mpr ⟨by decide, hdigits⟩, ?_⟩
    have hzero : naturalOf ['0'] = 0 := rfl
    rw [← List.singleton_append, naturalOf_append, hzero, Nat.zero_mul, Nat.zero_add,
      naturalOf_toDigits]
  · exact ⟨Nat.toDigits_ne_nil, hdigits, naturalOf_toDigits n⟩

section Unsigned

variable {ds rest : List Char} (hds : AreSignificant ds) (limit : Option ℕ) (point : ℤ)
  (hrest : EndsNumber rest) (negative : Bool)

include hds hrest

theorem readNumber_scientific : ∃ (a : ℕ) (u : ℤ), readNumber limit negative
      (ds.take 1 ++ (if ds.length ≤ 1 then [] else '.' :: ds.drop 1) ++
        'e' :: (if point - 1 < 0 then '-' else '+') :: exponentDigits (point - 1).natAbs ++ rest) =
      .ok (.float (ofDecimal negative a u), rest) ∧ (a : ℚ) * 10 ^ u = decimalValue ds point := by
  obtain ⟨hne, hdigits, hvalue⟩ := exponentDigits_spec (point - 1).natAbs
  have hplaces : ∀ c ∈ ds.drop 1, c.isDigit = true := fun c hc =>
    hds.digits c (List.mem_of_mem_drop hc)
  have hread := readNumber_exponent limit (hds.isWhole_take one_pos) hplaces hne hdigits
    hrest.endsDigits negative (decide (point - 1 < 0))
  refine ⟨_, _, Eq.trans ?_ hread, ?_⟩
  · simp only [List.append_assoc, List.cons_append, List.drop_eq_nil_iff, decide_eq_true_eq]
  · have hone : (ds.take 1).length = 1 := by
      rw [List.length_take]
      exact min_eq_left hds.length_pos
    rw [mul_pow_eq_decimalValue, List.take_append_drop, hvalue, hone]
    congr 1
    simp only [decide_eq_true_eq]
    split
    · omega
    · omega

/-- The value of a number in any notation is that of its digits and its point. -/
theorem readNumber_unsigned (f : FloatFormat) : ∃ (a : ℕ) (u : ℤ),
    readNumber limit negative (f.unsigned ds point ++ rest) =
      .ok (.float (ofDecimal negative a u), rest) ∧ (a : ℚ) * 10 ^ u = decimalValue ds point := by
  unfold FloatFormat.unsigned
  dsimp only
  split
  · exact readNumber_scientific hds limit point hrest negative
  split
  · next hpoint =>
    have hdigits : ∀ c ∈ List.replicate (-point).toNat '0' ++ ds, c.isDigit = true := by
      refine List.forall_mem_append.mpr ⟨fun c hc => ?_, hds.digits⟩
      rw [List.eq_of_mem_replicate hc]
      decide
    have hread := readNumber_point limit isWhole_zero (by simp [hds.ne_nil]) hdigits hrest
      negative
    refine ⟨_, _, hread, ?_⟩
    have hzeros : ['0'] ++ (List.replicate (-point).toNat '0' ++ ds) =
        List.replicate ((-point).toNat + 1) '0' ++ ds := rfl
    rw [mul_pow_neg_eq_decimalValue, hzeros, decimalValue_zeros_append, List.length_singleton]
    congr 1
    omega
  split
  · next hpoint =>
    have hzeros : ∀ c ∈ List.replicate (point - ds.length).toNat '0', c.isDigit = true := by
      intro c hc
      rw [List.eq_of_mem_replicate hc]
      decide
    have hread := readNumber_point limit (hds.isWhole_append hzeros)
      (List.cons_ne_nil '0' []) isWhole_zero.digits hrest negative
    refine ⟨_, _, Eq.trans ?_ hread, ?_⟩
    · simp
    · rw [mul_pow_neg_eq_decimalValue, List.append_assoc, ← List.replicate_succ',
        decimalValue_append_zeros, List.length_append, List.length_replicate]
      congr 1
      omega
  · next hlow hhigh =>
    have hplaces : ∀ c ∈ ds.drop point.toNat, c.isDigit = true := fun c hc =>
      hds.digits c (List.mem_of_mem_drop hc)
    have hne : ds.drop point.toNat ≠ [] := by
      rw [Ne, List.drop_eq_nil_iff]
      omega
    have hpos : 0 < point.toNat := by omega
    have hread := readNumber_point limit (hds.isWhole_take hpos) hne hplaces hrest negative
    refine ⟨_, _, Eq.trans ?_ hread, ?_⟩
    · simp
    · rw [mul_pow_neg_eq_decimalValue, List.take_append_drop, List.length_take]
      congr 1
      omega

end Unsigned

def IsReadable (x : Binary64) : Prop := x.magnitude = .notANumber → x = .nan

theorem exists_digit_of_readNumber {limit : Option ℕ} {negative : Bool} {cs : List Char}
    {r : Scalar × List Char} (h : readNumber limit negative cs = .ok r) :
    ∃ c tail, cs = c :: tail ∧ c.isDigit = true := by
  cases cs with
  | nil => cases h
  | cons c tail =>
    refine ⟨c, tail, rfl, ?_⟩
    by_contra hc
    have hzero : c ≠ '0' := by
      rintro rfl
      exact hc (by decide)
    rw [readNumber] at h
    · simp [hc] at h
    · intro t heq
      exact hzero (List.cons.inj heq).1

theorem areSignificant_stripZeros {n : ℕ} (hn : 0 < n) :
    AreSignificant (stripZeros (Nat.toDigits 10 n)) := by
  obtain ⟨k, hk⟩ := exists_stripZeros_append (Nat.toDigits 10 n)
  have hne : stripZeros (Nat.toDigits 10 n) ≠ [] := by
    intro hnil
    have hvalue := naturalOf_toDigits n
    rw [hk, hnil, List.nil_append, naturalOf_zeros] at hvalue
    omega
  refine ⟨hne, fun c hc => ?_, fun hhead => ?_⟩
  · refine isDigit_of_mem_toDigits n c ?_
    rw [hk]
    exact List.mem_append_left _ hc
  · refine head?_toDigits_ne hn.ne' ?_
    rw [hk, List.head?_append_of_ne_nil _ hne, hhead]

theorem readNumber_shortest {x : Binary64} {m : ℕ} {q : ℤ} (hx : x.magnitude = .finite m q)
    (hm : 0 < m) (limit : Option ℕ) {rest : List Char} (hrest : EndsNumber rest) :
    let shown := Nat.toDigits 10 x.shortest.digits
    readNumber limit x.negative (FloatFormat.data.unsigned (stripZeros shown)
      (x.shortest.exponent + shown.length) ++ rest) = .ok (.float x, rest) := by
  intro shown
  obtain ⟨hpos, hdecimal⟩ := Binary64.ofDecimal_shortest hx hm
  obtain ⟨a, u, hread, hvalue⟩ := readNumber_unsigned (areSignificant_stripZeros hpos) limit
    (x.shortest.exponent + shown.length) hrest x.negative FloatFormat.data
  obtain ⟨k, hk⟩ := exists_stripZeros_append shown
  have hsame : (a : ℚ) * 10 ^ u = x.shortest.digits * 10 ^ x.shortest.exponent := by
    rw [hvalue, ← decimalValue_append_zeros _ k, ← hk]
    exact decimalValue_toDigits _ _
  rw [hread, Binary64.ofDecimal_congr x.negative hsame, hdecimal]

theorem readScalar_render {x : Binary64} (hx : IsReadable x) (limit : Option ℕ) {rest : List Char}
    (hrest : EndsNumber rest) :
    readScalar limit ((FloatFormat.data.render x).toList ++ rest) = .ok (.float x, rest) := by
  have hsign : (if x.negative then "-" else "").toList = if x.negative then ['-'] else [] := by
    cases x.negative <;> rfl
  unfold FloatFormat.render
  cases hmagnitude : x.magnitude with
  | infinite =>
    have hinfinity := Binary64.eq_infinity_of_magnitude hmagnitude
    cases hnegative : x.negative with
    | false =>
      rw [hnegative] at hinfinity
      rw [hinfinity]
      rfl
    | true =>
      rw [hnegative] at hinfinity
      rw [hinfinity]
      rfl
  | notANumber =>
    rw [hx hmagnitude]
    rfl
  | finite m q =>
    dsimp only
    split
    · next hm =>
      have hzero := Binary64.eq_zero_of_magnitude (hm ▸ hmagnitude)
      have hread := readNumber_point limit isWhole_zero (List.cons_ne_nil '0' [])
        isWhole_zero.digits hrest x.negative
      have hvalue : ofDecimal x.negative (naturalOf (['0'] ++ ['0'])) (-(['0'].length : ℤ)) = x :=
        Eq.trans rfl hzero.symm
      rw [hvalue] at hread
      rw [String.toList_append, hsign, List.append_assoc]
      exact readScalar_signed (by decide) hread
    · next hm =>
      have hread := readNumber_shortest hmagnitude (Nat.pos_of_ne_zero hm) limit hrest
      dsimp only at hread
      obtain ⟨c, tail, hc, hdigit⟩ := exists_digit_of_readNumber hread
      rw [hc] at hread
      rw [String.toList_append, hsign, String.toList_ofList, List.append_assoc, hc]
      exact readScalar_signed hdigit hread

theorem toList_render_ne_nil {x : Binary64} (hx : IsReadable x) :
    (FloatFormat.data.render x).toList ≠ [] := by
  intro hnil
  have hread := readScalar_render hx none (show EndsNumber [] from nofun)
  rw [hnil] at hread
  cases hread

def IsNumeral (c : Char) : Prop := c.isDigit = true ∨ c ∈ "+-.eInfityNa".toList

theorem isNumeral_of_mem_unsigned (f : FloatFormat) {ds : List Char} (point : ℤ)
    (hds : ∀ c ∈ ds, c.isDigit = true) : ∀ c ∈ f.unsigned ds point, IsNumeral c := by
  have hpart {es : List Char} (h : es ⊆ ds) : ∀ c ∈ es, IsNumeral c := fun c hc =>
    Or.inl (hds c (h hc))
  have hzeros (k : ℕ) : ∀ c ∈ List.replicate k '0', IsNumeral c := fun c hc => by
    rw [List.eq_of_mem_replicate hc]
    exact Or.inl (by decide)
  have hpoint {es : List Char} (h : ∀ c ∈ es, IsNumeral c) : ∀ c ∈ '.' :: es, IsNumeral c :=
    List.forall_mem_cons.mpr ⟨Or.inr (by decide), h⟩
  unfold FloatFormat.unsigned
  dsimp only
  split
  · refine List.forall_mem_append.mpr ⟨List.forall_mem_append.mpr
      ⟨hpart (List.take_subset _ _), ?_⟩, List.forall_mem_cons.mpr ⟨Or.inr (by decide),
        List.forall_mem_cons.mpr ⟨?_, fun c hc => Or.inl ?_⟩⟩⟩
    · split
      · exact List.forall_mem_nil _
      · exact hpoint (hpart (List.drop_subset _ _))
    · split
      · exact Or.inr (by decide)
      · exact Or.inr (by decide)
    · exact (exponentDigits_spec (point - 1).natAbs).2.1 c hc
  split
  · exact List.forall_mem_cons.mpr ⟨Or.inl (by decide),
      hpoint (List.forall_mem_append.mpr ⟨hzeros _, hpart (List.Subset.refl _)⟩)⟩
  split
  · exact List.forall_mem_append.mpr ⟨List.forall_mem_append.mpr
      ⟨hpart (List.Subset.refl _), hzeros _⟩, hpoint (hzeros 1)⟩
  · exact List.forall_mem_append.mpr ⟨hpart (List.take_subset _ _),
      hpoint (hpart (List.drop_subset _ _))⟩

theorem isNumeral_of_mem_render (x : Binary64) :
    ∀ c ∈ (FloatFormat.data.render x).toList, IsNumeral c := by
  have hsign : ∀ c ∈ (if x.negative then "-" else "").toList, IsNumeral c := by
    split
    · exact List.forall_mem_singleton.mpr (Or.inr (by decide))
    · exact List.forall_mem_nil _
  have hword {w : String} (h : w.toList ⊆ "+-.eInfityNa".toList) : ∀ c ∈ w.toList, IsNumeral c :=
    fun c hc => Or.inr (h hc)
  unfold FloatFormat.render
  dsimp only
  split
  · rw [String.toList_append]
    exact List.forall_mem_append.mpr ⟨hsign, hword (by decide)⟩
  · exact hword (by decide)
  · split
    · have htext : "0.0".toList = ['0', '.', '0'] := by decide
      have hzero : IsNumeral '0' := Or.inl rfl
      rw [String.toList_append, htext]
      exact List.forall_mem_append.mpr ⟨hsign, List.forall_mem_cons.mpr ⟨hzero,
        List.forall_mem_cons.mpr ⟨Or.inr (by decide), List.forall_mem_singleton.mpr hzero⟩⟩⟩
    · rw [String.toList_append, String.toList_ofList]
      refine List.forall_mem_append.mpr ⟨hsign, isNumeral_of_mem_unsigned _ _ fun c hc => ?_⟩
      obtain ⟨k, hk⟩ := exists_stripZeros_append (Nat.toDigits 10 x.shortest.digits)
      refine isDigit_of_mem_toDigits x.shortest.digits c ?_
      rw [hk]
      exact List.mem_append_left _ hc

end CodeAtlas.Json
