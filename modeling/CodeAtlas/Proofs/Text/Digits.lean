import CodeAtlas.Proofs.Data.Numeral
import CodeAtlas.Proofs.Entity.Components
import CodeAtlas.Text.Digits

/-! # Decimal integers read back

The text of a natural number is read back as that number, unless it has too many digits.
-/

namespace CodeAtlas.Text

section Trimming

variable {p : Char → Bool} {cs : List Char}

theorem dropWhile_append_of_head (front : List Char) (h : ∀ c ∈ cs.head?, p c = false)
    (hne : cs ≠ []) : (front ++ cs).dropWhile p = front.dropWhile p ++ cs := by
  induction front with
  | nil =>
    obtain ⟨c, cs, rfl⟩ := List.exists_cons_of_ne_nil hne
    simp [h c rfl]
  | cons d front ih =>
    rw [List.cons_append, List.dropWhile_cons, List.dropWhile_cons, ih]
    split <;> rfl

theorem trimWhere_around (front back : List Char) (hne : cs ≠ [])
    (hhead : ∀ c ∈ cs.head?, p c = false) (hlast : ∀ c ∈ cs.getLast?, p c = false) :
    trimWhere p (front ++ cs ++ back) = front.dropWhile p ++ cs ++ dropWhileEnd p back := by
  have hfront : (front ++ cs ++ back).dropWhile p = front.dropWhile p ++ cs ++ back := by
    rw [List.append_assoc, dropWhile_append_of_head, List.append_assoc]
    · simpa [List.head?_append_of_ne_nil _ hne] using hhead
    · simp [hne]
  have hback : (back.reverse ++ (front.dropWhile p ++ cs).reverse).dropWhile p =
      back.reverse.dropWhile p ++ (front.dropWhile p ++ cs).reverse := by
    apply dropWhile_append_of_head
    · rwa [List.head?_reverse, List.getLast?_append_of_ne_nil _ hne]
    · simp [hne]
  rw [trimWhere, hfront, dropWhileEnd, List.reverse_append, hback, List.reverse_append,
    List.reverse_reverse, dropWhileEnd]

end Trimming

theorem toNat_of_isDigit {c : Char} (h : c.isDigit = true) : 0x30 ≤ c.toNat ∧ c.toNat ≤ 0x39 := by
  simpa [Char.isDigit, UInt32.le_iff_toNat_le] using h

theorem isBlank_of_isDigit {c : Char} (h : c.isDigit = true) : isBlank c = false := by
  have hrange := toNat_of_isDigit h
  simp [isBlank, Ranges.contains, blanks]
  omega

theorem digitValue?_of_isDigit {c : Char} (h : c.isDigit = true) :
    digitValue? c = some (c.toNat - '0'.toNat) := by
  have hrange := toNat_of_isDigit h
  have hzero : (fun z => decide (z ≤ c.toNat) && decide (c.toNat < z + 10)) 0x30 = true := by
    simp only [Bool.and_eq_true, decide_eq_true_eq]
    omega
  exact congrArg (Option.map (c.toNat - ·)) (List.find?_cons_of_pos hzero)

section Numeral

variable {ds : List Char}

theorem digitsOf_of_isDigit (hne : ds ≠ []) (hds : ∀ c ∈ ds, c.isDigit = true) :
    digitsOf ds = some (ds.map fun c => c.toNat - '0'.toNat) := by
  induction ds with
  | nil => exact absurd rfl hne
  | cons c ds ih =>
    obtain ⟨hc, hds⟩ := List.forall_mem_cons.mp hds
    cases ds with
    | nil =>
      rw [digitsOf, digitValue?_of_isDigit hc]
      rfl
    | cons d ds =>
      rw [digitsOf, digitValue?_of_isDigit hc, ih (List.cons_ne_nil d ds) hds]
      · rfl
      · exact List.cons_ne_nil d ds
      · rintro rest h
        obtain ⟨rfl, -⟩ := List.cons.inj h
        exact absurd (hds '_' List.mem_cons_self) (by decide)

theorem readInt?_of_isDigit (hne : ds ≠ []) (hds : ∀ c ∈ ds, c.isDigit = true)
    (hlength : ds.length ≤ digitLimit) :
    readInt? (.ofList ds) = some (Json.naturalOf ds : ℤ) := by
  have htrim : trimWhere isNumeralBlank ds = ds := by
    refine trimWhere_eq_self fun c hc => ?_
    rw [isNumeralBlank, isBlank_of_isDigit (hds c hc), Bool.false_and]
  have hvalue : ofDigits 10 (ds.map fun c => c.toNat - '0'.toNat) = Json.naturalOf ds := by
    rw [ofDigits, List.foldl_map, Json.naturalOf]
  have hfits : ¬ (ds.map fun c => c.toNat - '0'.toNat).length > digitLimit := by
    rwa [List.length_map, not_lt]
  unfold readInt?
  rw [String.toList_ofList, htrim]
  dsimp only
  split
  · exact absurd (hds '-' List.mem_cons_self) (by decide)
  · exact absurd (hds '+' List.mem_cons_self) (by decide)
  · rw [digitsOf_of_isDigit hne hds, Option.bind_eq_bind, Option.bind_some, if_neg hfits, hvalue]
    rfl

end Numeral

/-- A natural number is read back from its text, unless it has too many digits. -/
theorem readInt?_toString {n : ℕ} (hn : n < 10 ^ digitLimit) :
    readInt? (toString n) = some (n : ℤ) := by
  have hlength : (Nat.toDigits 10 n).length ≤ digitLimit :=
    (Nat.length_toDigits_le_iff (by decide) (by decide)).mpr hn
  have hdigits := Json.isDigit_of_mem_toDigits n
  rw [Nat.toString_eq_ofList_toDigits, readInt?_of_isDigit Nat.toDigits_ne_nil hdigits hlength,
    Json.naturalOf_toDigits]

theorem lt_pow_digitLimit {n : ℕ} (h : n < 10 ^ 5) : n < 10 ^ digitLimit :=
  h.trans_le (Nat.pow_le_pow_right (by decide) (by decide))

end CodeAtlas.Text
