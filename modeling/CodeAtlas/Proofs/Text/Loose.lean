import Mathlib.Data.Nat.Notation
import CodeAtlas.Text.Loose

/-! # Which texts can be encoded

A loose text can be encoded if and only if it holds nothing but characters. The loose text of
octets that are ill-formed somewhere holds one of them, so it cannot be encoded.
-/

namespace CodeAtlas.Text

namespace LooseText

theorem chars?_map_char (cs : List Char) (place : ℕ) :
    chars? place (cs.map .char) = .ok cs := by
  induction cs generalizing place with
  | nil => rfl
  | cons c cs ih =>
    rw [List.map_cons, chars?, ih]
    rfl

theorem eq_of_chars?_eq_ok {t : LooseText} {place : ℕ} {cs : List Char}
    (h : chars? place t = .ok cs) : t = cs.map .char := by
  induction t generalizing place cs with
  | nil =>
    obtain rfl := Except.ok.inj h
    rfl
  | cons c t ih =>
    cases c with
    | octet b => cases h
    | char c =>
      cases htail : chars? (place + 1) t with
      | error fault =>
        rw [chars?, htail] at h
        cases h
      | ok cs' =>
        rw [chars?, htail] at h
        obtain rfl := Except.ok.inj h
        rw [List.map_cons, ← ih htail]

@[simp] theorem encode_ofString (s : String) : (ofString s).encode = .ok s := by
  rw [encode, ofString, chars?_map_char]
  exact congrArg Except.ok String.ofList_toList

theorem encode_eq_ok {t : LooseText} {s : String} : t.encode = .ok s ↔ t = ofString s := by
  constructor
  · intro h
    cases hchars : chars? 0 t with
    | error fault =>
      rw [encode, hchars] at h
      cases h
    | ok cs =>
      rw [encode, hchars] at h
      obtain rfl := Except.ok.inj h
      rw [ofString, String.toList_ofList]
      exact eq_of_chars?_eq_ok hchars
  · rintro rfl
    exact encode_ofString s

theorem ofString_injective : Function.Injective ofString := by
  intro s s' h
  rw [← shown_ofString s, h, shown_ofString]

theorem octet_notMem_ofString (b : UInt8) (s : String) : .octet b ∉ ofString s := by
  simp [ofString]

theorem eq_ofString_shown {t : LooseText} (h : ∀ b, .octet b ∉ t) : t = ofString t.shown := by
  rw [ofString, shown, String.toList_ofList, List.map_map]
  refine (List.map_id'' (fun _ => rfl) t).symm.trans (List.map_congr_left fun c hc => ?_)
  cases c with
  | char c => rfl
  | octet b => exact absurd hc (h b)

end LooseText

namespace Utf8

theorem continuation_taken_ne_nil {n : ℕ} {lo hi : UInt8} {code : ℕ} {taken l : List UInt8}
    (htaken : taken ≠ []) {why : Fault} {bad rest : List UInt8}
    (h : continuation n lo hi code taken l = .fault why bad rest) : bad ≠ [] := by
  induction n, lo, hi, code, taken, l using continuation.induct with
  | case1 => cases h
  | case2 =>
    obtain ⟨-, rfl, -⟩ := Step.fault.inj h
    exact htaken
  | case3 n lo hi code taken b l hrange ih =>
    rw [continuation, if_pos hrange] at h
    exact ih (List.append_ne_nil_of_left_ne_nil htaken _) h
  | case4 n lo hi code taken b l hrange =>
    rw [continuation, if_neg hrange] at h
    obtain ⟨-, rfl, -⟩ := Step.fault.inj h
    exact htaken

theorem step_taken_ne_nil {b : UInt8} {l : List UInt8} {why : Fault} {bad rest : List UInt8}
    (h : step b l = .fault why bad rest) : bad ≠ [] := by
  unfold step at h
  split at h
  · cases h
  · split at h
    · obtain ⟨-, rfl, -⟩ := Step.fault.inj h
      exact List.cons_ne_nil _ _
    · exact continuation_taken_ne_nil (List.cons_ne_nil _ _) h

section Step

variable {b : UInt8} {l rest : List UInt8}

theorem ofOctets_of_char {c : Char} (h : step b l = .char c rest) :
    LooseText.ofOctets (b :: l) = .char c :: LooseText.ofOctets rest := by
  rw [LooseText.ofOctets]
  split
  · next h' =>
    obtain ⟨rfl, rfl⟩ := Step.char.inj (h.symm.trans h')
    rfl
  · next h' => simp [h] at h'

theorem ofOctets_of_fault {why : Fault} {bad : List UInt8} (h : step b l = .fault why bad rest) :
    LooseText.ofOctets (b :: l) = bad.map .octet ++ LooseText.ofOctets rest := by
  rw [LooseText.ofOctets]
  split
  · next h' => simp [h] at h'
  · next h' =>
    obtain ⟨rfl, rfl, rfl⟩ := Step.fault.inj (h.symm.trans h')
    rfl

theorem decodeChars?_of_char {c : Char} (h : step b l = .char c rest) (position : ℕ) :
    decodeChars? position (b :: l) =
      (decodeChars? (position + c.utf8Size) rest).map (c :: ·) := by
  rw [decodeChars?]
  split
  · next h' =>
    obtain ⟨rfl, rfl⟩ := Step.char.inj (h.symm.trans h')
    cases decodeChars? (position + c.utf8Size) rest <;> rfl
  · next h' => simp [h] at h'

end Step

theorem exists_decodeChars?_eq_ok {bytes : List UInt8} {cs : List Char}
    (h : LooseText.ofOctets bytes = cs.map .char) (position : ℕ) :
    ∃ cs', decodeChars? position bytes = .ok cs' := by
  induction bytes using LooseText.ofOctets.induct generalizing cs position with
  | case1 => exact ⟨[], by rw [decodeChars?]⟩
  | case2 b l c rest hstep ih =>
    rw [ofOctets_of_char hstep] at h
    obtain ⟨d, cs, rfl, -, hrest⟩ := List.map_eq_cons_iff.mp h.symm
    obtain ⟨cs', hcs'⟩ := ih hrest.symm (position + c.utf8Size)
    exact ⟨c :: cs', by rw [decodeChars?_of_char hstep, hcs']; rfl⟩
  | case3 b l why bad rest hstep ih =>
    rw [ofOctets_of_fault hstep] at h
    obtain ⟨b', bad, rfl⟩ := List.exists_cons_of_ne_nil (step_taken_ne_nil hstep)
    cases cs <;> cases h

end Utf8

theorem LooseText.ofOctets_ne_ofString {bytes : List UInt8}
    (h : (Utf8.decode? bytes).isOk = false) (s : String) : ofOctets bytes ≠ ofString s := by
  intro heq
  obtain ⟨cs, hcs⟩ := Utf8.exists_decodeChars?_eq_ok heq 0
  rw [Utf8.decode?, hcs] at h
  cases h

end CodeAtlas.Text
