import Mathlib.Data.Nat.Notation
import CodeAtlas.Text.Utf8

/-! # Reading what was encoded

The octets that encode a text are well-formed, and they are read as that text.
-/

namespace CodeAtlas.Text.Utf8

theorem toList_loop (bytes : ByteArray) (i : ℕ) (read : List UInt8) :
    ByteArray.toList.loop bytes i read = read.reverse ++ bytes.data.toList.drop i := by
  induction i, read using ByteArray.toList.loop.induct bytes with
  | case1 i read h ih =>
    have hi : i < bytes.data.toList.length := by simpa using h
    rw [ByteArray.toList.loop, if_pos h, ih, List.drop_eq_getElem_cons hi]
    simp [ByteArray.get!, h]
  | case2 i read h =>
    have hdrop : bytes.data.toList.drop i = [] :=
      List.drop_eq_nil_of_le (by simpa using Nat.le_of_not_lt h)
    rw [ByteArray.toList.loop, if_neg h, hdrop, List.append_nil]

theorem toList_toUTF8 (s : String) :
    s.toUTF8.toList = s.toList.flatMap String.utf8EncodeChar := by
  have hbytes := String.toByteArray_ofList (l := s.toList)
  rw [String.ofList_toList] at hbytes
  rw [String.toUTF8_eq_toByteArray, hbytes, ByteArray.toList, toList_loop]
  simp [List.utf8Encode]

section Octet

variable {n : ℕ}

theorem toNat_octet (h : n < 256) : (UInt8.ofNat n).toNat = n := by
  simp [Nat.mod_eq_of_lt h]

theorem lead?_two (hn : 2 ≤ n) (h : n < 32) :
    lead? (UInt8.ofNat (n + 192)) = some (1, n, 0x80, 0xbf) := by
  have hall : ∀ m < 30, lead? (UInt8.ofNat (2 + m + 192)) = some (1, 2 + m, 0x80, 0xbf) := by
    decide
  obtain ⟨m, rfl⟩ := Nat.exists_eq_add_of_le hn
  exact hall m (by omega)

theorem lead?_three (h : n < 16) : lead? (UInt8.ofNat (n + 224)) =
    some (2, n, if n = 0 then 0xa0 else 0x80, if n = 13 then 0x9f else 0xbf) := by
  revert n
  decide

theorem lead?_four (h : n < 5) : lead? (UInt8.ofNat (n + 240)) =
    some (3, n, if n = 0 then 0x90 else 0x80, if n = 4 then 0x8f else 0xbf) := by
  revert n
  decide

/-- An octet that may follow the first one of a character. -/
theorem continuation_cons {x : ℕ} (hx : x < 64) {lo hi : UInt8} (hlo : lo.toNat ≤ x + 128)
    (hhi : x + 128 ≤ hi.toNat) (n code : ℕ) (taken rest : List UInt8) :
    continuation (n + 1) lo hi code taken (UInt8.ofNat (x + 128) :: rest) =
      continuation n 0x80 0xbf (code * 64 + x) (taken ++ [UInt8.ofNat (x + 128)]) rest := by
  have hoctet : (UInt8.ofNat (x + 128)).toNat = x + 128 := toNat_octet (by omega)
  have hrange : (lo ≤ UInt8.ofNat (x + 128) && UInt8.ofNat (x + 128) ≤ hi) = true := by
    simp only [Bool.and_eq_true, decide_eq_true_eq, UInt8.le_iff_toNat_le, hoctet]
    exact ⟨hlo, hhi⟩
  rw [continuation, if_pos hrange, hoctet, Nat.add_sub_cancel]

theorem continuation_cons_any {x : ℕ} (hx : x < 64) (n code : ℕ) (taken rest : List UInt8) :
    continuation (n + 1) 0x80 0xbf code taken (UInt8.ofNat (x + 128) :: rest) =
      continuation n 0x80 0xbf (code * 64 + x) (taken ++ [UInt8.ofNat (x + 128)]) rest := by
  have hhi : x + 128 ≤ (0xbf : UInt8).toNat := by
    change _ ≤ 191
    omega
  exact continuation_cons hx (Nat.le_add_left ..) hhi ..

theorem step_of_lead {b lo hi : UInt8} {count bits : ℕ} (hb : 128 ≤ b.toNat)
    (hlead : lead? b = some (count, bits, lo, hi)) (rest : List UInt8) :
    step b rest = continuation count lo hi bits [b] rest := by
  have hnot : ¬ b < 0x80 := by
    rw [UInt8.lt_iff_toNat_lt]
    simpa using hb
  rw [step, if_neg hnot, hlead]

end Octet

section Code

variable {v : ℕ} (rest : List UInt8)

theorem step_one (h : v ≤ 0x7f) : step (.ofNat v) rest = .char (.ofNat v) rest := by
  have hoctet : (UInt8.ofNat v).toNat = v := toNat_octet (by omega)
  have hlt : UInt8.ofNat v < 0x80 := by
    rw [UInt8.lt_iff_toNat_lt, hoctet]
    exact Nat.lt_succ_of_le h
  rw [step, if_pos hlt, hoctet]

theorem step_two (hlow : 0x7f < v) (h : v ≤ 0x7ff) :
    step (.ofNat (v / 64 % 32 + 192)) (.ofNat (v % 64 + 128) :: rest) = .char (.ofNat v) rest := by
  have hcode : v / 64 % 32 * 64 + v % 64 = v := by omega
  rw [step_of_lead _ (lead?_two (by omega) (by omega))]
  · rw [continuation_cons_any (by omega), continuation, hcode]
  · rw [toNat_octet (by omega)]
    omega

theorem step_three (hlow : 0x7ff < v) (h : v ≤ 0xffff) (hvalid : v < 0xd800 ∨ 0xdfff < v) :
    step (.ofNat (v / 4096 % 16 + 224))
      (.ofNat (v / 64 % 64 + 128) :: .ofNat (v % 64 + 128) :: rest) = .char (.ofNat v) rest := by
  have hcode : (v / 4096 % 16 * 64 + v / 64 % 64) * 64 + v % 64 = v := by omega
  rw [step_of_lead _ (lead?_three (by omega))]
  · rw [continuation_cons (by omega), continuation_cons_any (by omega), continuation, hcode]
    · split
      · change 160 ≤ _
        omega
      · exact Nat.le_add_left ..
    · split
      · change _ ≤ 159
        omega
      · change _ ≤ 191
        omega
  · rw [toNat_octet (by omega)]
    omega

theorem step_four (hlow : 0xffff < v) (h : v < 0x110000) :
    step (.ofNat (v / 262144 % 8 + 240)) (.ofNat (v / 4096 % 64 + 128) ::
      .ofNat (v / 64 % 64 + 128) :: .ofNat (v % 64 + 128) :: rest) = .char (.ofNat v) rest := by
  have hcode :
      ((v / 262144 % 8 * 64 + v / 4096 % 64) * 64 + v / 64 % 64) * 64 + v % 64 = v := by omega
  rw [step_of_lead _ (lead?_four (by omega))]
  · rw [continuation_cons (by omega), continuation_cons_any (by omega),
      continuation_cons_any (by omega), continuation, hcode]
    · split
      · change 144 ≤ _
        omega
      · exact Nat.le_add_left ..
    · split
      · change _ ≤ 143
        omega
      · change _ ≤ 191
        omega
  · rw [toNat_octet (by omega)]
    omega

end Code

theorem exists_step_utf8EncodeChar (c : Char) (rest : List UInt8) :
    ∃ b bs, String.utf8EncodeChar c = b :: bs ∧ step b (bs ++ rest) = .char c rest := by
  have hc : Char.ofNat c.val.toNat = c := Char.ofNat_toNat c
  have hvalid : c.val.toNat < 0xd800 ∨ 0xdfff < c.val.toNat ∧ c.val.toNat < 0x110000 := c.valid
  generalize hv : c.val.toNat = v at hc hvalid
  subst hc
  rw [String.utf8EncodeChar]
  simp only [hv]
  split
  · next h => exact ⟨_, _, rfl, step_one rest h⟩
  split
  · next hlow h => exact ⟨_, _, rfl, step_two rest (Nat.not_le.mp hlow) h⟩
  split
  · next hlow h =>
    exact ⟨_, _, rfl, step_three rest (Nat.not_le.mp hlow) h (hvalid.imp_right And.left)⟩
  · next hlow => exact ⟨_, _, rfl, step_four rest (Nat.not_le.mp hlow) (by omega)⟩

theorem decodeChars?_flatMap (cs : List Char) (position : ℕ) :
    decodeChars? position (cs.flatMap String.utf8EncodeChar) = .ok cs := by
  induction cs generalizing position with
  | nil => rw [List.flatMap_nil, decodeChars?]
  | cons c cs ih =>
    obtain ⟨b, bs, hoctets, hstep⟩ :=
      exists_step_utf8EncodeChar c (cs.flatMap String.utf8EncodeChar)
    rw [List.flatMap_cons, hoctets, List.cons_append, decodeChars?]
    split
    · next c' rest h =>
      obtain ⟨rfl, rfl⟩ := Step.char.inj (hstep.symm.trans h)
      rw [ih]
      rfl
    · next h => simp [hstep] at h

/-- The octets of a text are read as the text. -/
theorem decode?_toUTF8 (s : String) : decode? s.toUTF8.toList = .ok s := by
  rw [decode?, toList_toUTF8, decodeChars?_flatMap]
  exact congrArg Except.ok String.ofList_toList

end CodeAtlas.Text.Utf8
