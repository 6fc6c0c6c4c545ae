import CodeAtlas.Proofs.Data.Json

/-! # What is read is plain

A value that is read from a text has neither sets nor pairs, its mappings have different texts as
keys, its integers are within the limit, and its other numbers can be read. So it can be printed and
read again.
-/

namespace CodeAtlas.Json

open Binary64 (ofDecimal)

variable {limit : Option ℕ} {fuel : ℕ} {cs rest : List Char}

theorem naturalOf_lt {ds : List Char} (hds : ∀ c ∈ ds, c.isDigit = true) :
    naturalOf ds < 10 ^ ds.length := by
  have hdigit (c : Char) (hc : c.isDigit = true) : c.toNat - '0'.toNat < 10 := by
    simp only [Char.isDigit, Bool.and_eq_true, decide_eq_true_eq] at hc
    have hle : c.toNat ≤ '9'.toNat := hc.2
    have hnine : '9'.toNat = '0'.toNat + 9 := by decide
    omega
  induction ds using List.reverseRecOn with
  | nil => decide
  | append_singleton ds d ih =>
    obtain ⟨hds, hd⟩ := List.forall_mem_append.mp hds
    have hlast : naturalOf [d] = d.toNat - '0'.toNat := Nat.zero_add _
    have hlt := hdigit d (hd d List.mem_cons_self)
    have := ih hds
    rw [naturalOf_append, hlast, List.length_append, List.length_singleton, pow_one, pow_succ]
    omega

theorem fits_naturalOf {ds : List Char} (hne : ds ≠ []) (hds : ∀ c ∈ ds, c.isDigit = true)
    (h : limit.any (· < ds.length) = false) : Fits limit (naturalOf ds) := by
  rintro k rfl
  have hle : ds.length ≤ k := by simpa using h
  have hpos : 0 < ds.length := List.length_pos_iff.mpr hne
  refine (Nat.length_toDigits_le_iff (by decide) (hpos.trans_le hle)).mpr ?_
  exact (naturalOf_lt hds).trans_le (Nat.pow_le_pow_right (by decide) hle)

theorem isPlain_of_readNumber {negative : Bool} {s : Scalar}
    (h : readNumber limit negative cs = .ok (s, rest)) : IsPlain limit (.scalar s) := by
  unfold readNumber at h
  extract_lets whole after fraction afterFraction exponent value places at h
  have hdigits : ∀ c ∈ whole, c.isDigit = true := by
    intro c hc
    simp only [whole] at hc
    split at hc
    · rw [List.mem_singleton.mp hc]
      decide
    · exact List.mem_takeWhile_imp hc
  split at h
  · cases h
  · next hne =>
    split at h
    · split at h
      · cases h
      · next hlong =>
        obtain ⟨rfl, -⟩ := Prod.mk.inj (Except.ok.inj h)
        have hfits : Fits limit (naturalOf whole) :=
          fits_naturalOf (by simpa using hne) hdigits (Bool.eq_false_iff.mpr hlong)
        refine .int ?_
        split
        · rwa [Int.natAbs_neg, Int.natAbs_natCast]
        · rwa [Int.natAbs_natCast]
    · split at h
      obtain ⟨rfl, -⟩ := Prod.mk.inj (Except.ok.inj h)
      exact .float fun hnone => absurd hnone (Binary64.magnitude_ofDecimal_ne _ _ _)

theorem isPlain_of_mem_keywords {k : String × Scalar} (h : k ∈ keywords) :
    IsPlain limit (.scalar k.2) := by
  have hinfinity (negative : Bool) : IsReadable (.infinity negative) := fun hnone =>
    absurd hnone (Binary64.magnitude_ofFields_ne negative le_rfl)
  simp only [keywords, List.mem_cons, List.not_mem_nil, or_false] at h
  rcases h with rfl | rfl | rfl | rfl | rfl | rfl
  · exact .null
  · exact .bool true
  · exact .bool false
  · exact .float fun _ => rfl
  · exact .float (hinfinity false)
  · exact .float (hinfinity true)

theorem isPlain_of_readScalar {s : Scalar} (h : readScalar limit cs = .ok (s, rest)) :
    IsPlain limit (.scalar s) := by
  unfold readScalar at h
  split at h
  · next hkeyword =>
    cases h
    obtain ⟨k, hk, hfound⟩ := List.exists_of_findSome?_eq_some hkeyword
    dsimp only at hfound
    split_ifs at hfound
    cases hfound
    exact isPlain_of_mem_keywords hk
  · split at h
    · exact isPlain_of_readNumber h
    · exact isPlain_of_readNumber h

/-- Putting a value under a text keeps the texts that are keys, each of them once. -/
theorem exists_insert_text (fields : List (String × Value)) (key : String) (v : Value) :
    ∃ fields' : List (String × Value),
      Value.insert (fields.map fun (k, w) => (.text k, w)) (.text key) v =
        fields'.map (fun (k, w) => (.text k, w)) ∧
      (∀ f ∈ fields', f ∈ fields ∨ f = (key, v)) ∧
      ((fields.map (·.1)).Nodup → (fields'.map (·.1)).Nodup) := by
  induction fields with
  | nil => exact ⟨[(key, v)], rfl, by simp, by simp⟩
  | cons f fields ih =>
    rw [List.map_cons, Value.insert, same_text]
    by_cases hkey : f.1 = key
    · refine ⟨(f.1, v) :: fields, by simp [hkey], ?_, fun h => h⟩
      rw [hkey]
      exact List.forall_mem_cons.mpr ⟨Or.inr rfl, fun g hg => Or.inl (List.mem_cons_of_mem _ hg)⟩
    · obtain ⟨fields', hinsert, hmem, hnodup⟩ := ih
      refine ⟨f :: fields', ?_, ?_, fun h => ?_⟩
      · rw [beq_false_of_ne hkey, hinsert]
        rfl
      · refine List.forall_mem_cons.mpr ⟨Or.inl List.mem_cons_self, fun g hg => ?_⟩
        exact (hmem g hg).imp_left (List.mem_cons_of_mem _)
      · obtain ⟨hfresh, htail⟩ := List.nodup_cons.mp h
        refine List.nodup_cons.mpr ⟨fun hf => ?_, hnodup htail⟩
        obtain ⟨g, hg, hgf⟩ := List.mem_map.mp hf
        rcases hmem g hg with hg | rfl
        · exact hfresh (hgf ▸ List.mem_map_of_mem hg)
        · exact hkey hgf.symm

theorem isPlain_map_iff {entries : List (Scalar × Value)} : IsPlain limit (.map entries) ↔
    ∃ fields : List (String × Value), entries = fields.map (fun (k, w) => (.text k, w)) ∧
      (fields.map (·.1)).Nodup ∧ ∀ f ∈ fields, IsPlain limit f.2 := by
  constructor
  · intro h
    generalize hv : Value.map entries = v at h
    cases h with
    | record hkeys h => exact ⟨_, Value.map.inj hv, hkeys, h⟩
    | _ => cases hv
  · rintro ⟨fields, rfl, hkeys, h⟩
    exact .record hkeys h

theorem isPlain_map_nil : IsPlain limit (.map []) :=
  isPlain_map_iff.mpr ⟨[], rfl, List.nodup_nil, List.forall_mem_nil _⟩

theorem IsPlain.insert {entries : List (Scalar × Value)} {v : Value}
    (h : IsPlain limit (.map entries)) (key : String) (hv : IsPlain limit v) :
    IsPlain limit (.map (Value.insert entries (.text key) v)) := by
  obtain ⟨fields, rfl, hkeys, hfields⟩ := isPlain_map_iff.mp h
  obtain ⟨fields', hinsert, hmem, hnodup⟩ := exists_insert_text fields key v
  refine isPlain_map_iff.mpr ⟨fields', hinsert, hnodup hkeys, fun f hf => ?_⟩
  rcases hmem f hf with hf | rfl
  · exact hfields f hf
  · exact hv

structure ReadsPlain (limit : Option ℕ) (fuel : ℕ) : Prop where
  value : ∀ {cs v rest}, readValue limit fuel cs = .ok (v, rest) → IsPlain limit v
  items : ∀ {cs vs rest}, readItems limit fuel cs = .ok (vs, rest) → ∀ v ∈ vs, IsPlain limit v
  entries : ∀ {before cs v rest}, IsPlain limit (.map before) →
    readEntries limit fuel before cs = .ok (v, rest) → IsPlain limit v

section Step

variable (h : ReadsPlain limit fuel)

include h

theorem ReadsPlain.value_succ {v : Value} (hread : readValue limit (fuel + 1) cs = .ok (v, rest)) :
    IsPlain limit v := by
  unfold readValue at hread
  split at hread
  · obtain ⟨s, -, heq⟩ := bind_eq_ok_iff.mp hread
    cases heq
    exact .text _
  · split at hread
    · cases hread
      exact .list (List.forall_mem_nil _)
    · obtain ⟨vs, hvs, heq⟩ := bind_eq_ok_iff.mp hread
      cases heq
      exact .list (h.items hvs)
  · split at hread
    · cases hread
      exact isPlain_map_nil
    · exact h.entries isPlain_map_nil hread
  · obtain ⟨s, hs, heq⟩ := bind_eq_ok_iff.mp hread
    cases heq
    exact isPlain_of_readScalar hs

theorem ReadsPlain.items_succ {vs : List Value}
    (hread : readItems limit (fuel + 1) cs = .ok (vs, rest)) : ∀ v ∈ vs, IsPlain limit v := by
  rw [readItems] at hread
  obtain ⟨⟨v, r⟩, hv, hread⟩ := bind_eq_ok_iff.mp hread
  dsimp only at hread
  split at hread
  · cases hread
    exact List.forall_mem_singleton.mpr (h.value hv)
  · obtain ⟨⟨ws, r'⟩, hws, heq⟩ := bind_eq_ok_iff.mp hread
    cases heq
    exact List.forall_mem_cons.mpr ⟨h.value hv, h.items hws⟩
  · cases hread

theorem ReadsPlain.entries_succ {before : List (Scalar × Value)} {v : Value}
    (hbefore : IsPlain limit (.map before))
    (hread : readEntries limit (fuel + 1) before cs = .ok (v, rest)) : IsPlain limit v := by
  unfold readEntries at hread
  split at hread
  · obtain ⟨⟨key, r⟩, -, hread⟩ := bind_eq_ok_iff.mp hread
    dsimp only at hread
    split at hread
    · obtain ⟨⟨w, r'⟩, hw, hread⟩ := bind_eq_ok_iff.mp hread
      have hentries := hbefore.insert (.ofList key) (h.value hw)
      dsimp only at hread
      split at hread
      · cases hread
        exact hentries
      · exact h.entries hentries hread
      · cases hread
    · cases hread
  · cases hread

end Step

theorem readsPlain (limit : Option ℕ) (fuel : ℕ) : ReadsPlain limit fuel := by
  induction fuel with
  | zero =>
    refine ⟨fun h => ?_, fun h => ?_, fun _ h => ?_⟩
    · rw [readValue] at h
      cases h
    · rw [readItems] at h
      cases h
    · rw [readEntries] at h
      cases h
  | succ fuel ih => exact ⟨ih.value_succ, ih.items_succ, ih.entries_succ⟩

theorem isPlain_of_read {s : String} {v : Value} (h : read limit s = .ok v) : IsPlain limit v := by
  unfold read at h
  split at h
  · cases h
  · obtain ⟨⟨w, r⟩, hw, heq⟩ := bind_eq_ok_iff.mp h
    dsimp only at heq
    split at heq
    · cases heq
      exact (readsPlain limit _).value hw
    · cases heq

end CodeAtlas.Json
