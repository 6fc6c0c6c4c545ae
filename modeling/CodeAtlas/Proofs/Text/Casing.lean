import Mathlib.Data.List.TakeWhile
import CodeAtlas.Text.Casing

/-! # Lower-casing a part of a text

A part of a text has the image in its place that it has alone, exactly if each of its capital sigmas
takes the form that it takes in the part alone. A capital sigma with letters of the part on both
sides does so.
-/

namespace CodeAtlas.Text

/-- A capital sigma between the reversed text `before` and the text `rest` takes the final form. -/
def isFinalSigma (before rest : List Char) : Bool := casedAhead before && !casedAhead rest

/-- The image of a character between the reversed text `before` and the text `rest`. -/
def lowerAt (before : List Char) (c : Char) (rest : List Char) : List Char :=
  if c == 'Σ' then if isFinalSigma before rest then ['ς'] else ['σ'] else lowerChar c

/-- The image of a part of a text, between the reversed text `before` and the text `after`. -/
def lowerBetween (before after : List Char) : List Char → List Char
  | [] => []
  | c :: rest => lowerAt before c (rest ++ after) ++ lowerBetween (c :: before) after rest

theorem lowerFrom_append (before xs ys : List Char) :
    lowerFrom before (xs ++ ys) =
      lowerBetween before ys xs ++ lowerFrom (xs.reverse ++ before) ys := by
  induction xs generalizing before with
  | nil => rfl
  | cons c xs ih =>
    rw [List.cons_append, lowerFrom, ih, lowerBetween, List.append_assoc, List.reverse_cons,
      List.append_assoc]
    rfl

theorem lowerFrom_eq (before xs : List Char) : lowerFrom before xs = lowerBetween before [] xs := by
  simpa [lowerFrom] using lowerFrom_append before xs []

section Sigma

variable {before before' after after' : List Char}

theorem length_lowerAt (c : Char) (rest rest' : List Char) :
    (lowerAt before c rest).length = (lowerAt before' c rest').length := by
  unfold lowerAt
  split
  · split <;> split <;> rfl
  · rfl

theorem lowerAt_eq_iff {c : Char} {rest rest' : List Char} :
    lowerAt before c rest = lowerAt before' c rest' ↔
      (c = 'Σ' → isFinalSigma before rest = isFinalSigma before' rest') := by
  unfold lowerAt
  by_cases hc : c = 'Σ'
  · cases isFinalSigma before rest <;> cases isFinalSigma before' rest' <;> simp [hc]
  · simp [hc]

theorem lowerBetween_eq_iff {part : List Char} :
    lowerBetween before after part = lowerBetween before' after' part ↔
      ∀ front back, part = front ++ 'Σ' :: back →
        isFinalSigma (front.reverse ++ before) (back ++ after) =
          isFinalSigma (front.reverse ++ before') (back ++ after') := by
  induction part generalizing before before' with
  | nil => simp [lowerBetween]
  | cons c rest ih =>
    rw [lowerBetween, lowerBetween]
    constructor
    · intro heq front back hpart
      obtain ⟨hhead, htail⟩ := List.append_inj heq (length_lowerAt c _ _)
      cases front with
      | nil =>
        obtain ⟨rfl, rfl⟩ := List.cons.inj hpart
        exact lowerAt_eq_iff.mp hhead rfl
      | cons d front =>
        obtain ⟨rfl, rfl⟩ := List.cons.inj hpart
        simpa using ih.mp htail front back rfl
    · intro h
      have hhead : c = 'Σ' → isFinalSigma before (rest ++ after) =
          isFinalSigma before' (rest ++ after') := fun hc => h [] rest (by rw [hc]; rfl)
      -- `c` now stands before both rests, so the texts before them stay as general as at the start.
      have htail : lowerBetween (c :: before) after rest =
          lowerBetween (c :: before') after' rest :=
        ih.mpr fun front back hrest => by simpa using h (c :: front) back (by rw [hrest]; rfl)
      rw [lowerAt_eq_iff.mpr hhead, htail]

/-- Each capital sigma of a part, between the reversed text `before` and the text `after`, takes the
form that it takes in the part alone. -/
def KeepsSigmas (before part after : List Char) : Prop :=
  ∀ front back, part = front ++ 'Σ' :: back →
    isFinalSigma (front.reverse ++ before) (back ++ after) = isFinalSigma front.reverse back

theorem lowerBetween_eq_lowerFrom_iff {part : List Char} :
    lowerBetween before after part = lowerFrom [] part ↔ KeepsSigmas before part after := by
  rw [lowerFrom_eq, lowerBetween_eq_iff, KeepsSigmas]
  simp only [List.append_nil]

theorem casedAhead_append {xs : List Char} (h : ∃ c ∈ xs, caseIgnorable.contains c = false)
    (ys : List Char) : casedAhead (xs ++ ys) = casedAhead xs := by
  have hletter : xs.dropWhile caseIgnorable.contains ≠ [] := by
    rw [ne_eq, List.dropWhile_eq_nil_iff]
    obtain ⟨c, hc, hletter⟩ := h
    exact fun hall => by simp [hall c hc] at hletter
  obtain ⟨c, rest, hrest⟩ := List.exists_cons_of_ne_nil hletter
  have happend : (xs ++ ys).dropWhile caseIgnorable.contains = c :: (rest ++ ys) := by
    rw [List.dropWhile_append, hrest]
    rfl
  rw [casedAhead, casedAhead, hrest, happend]

/-- Only the outermost letters of a part can be capital sigmas whose form the text around it
decides. -/
theorem keepsSigmas_of_enclosed {part : List Char}
    (h : ∀ front back, part = front ++ 'Σ' :: back →
      (∃ c ∈ front, caseIgnorable.contains c = false) ∧
        ∃ c ∈ back, caseIgnorable.contains c = false) :
    KeepsSigmas before part after := by
  intro front back hpart
  obtain ⟨⟨c, hc, hletter⟩, hback⟩ := h front back hpart
  have hfront : ∃ c ∈ front.reverse, caseIgnorable.contains c = false :=
    ⟨c, List.mem_reverse.mpr hc, hletter⟩
  rw [isFinalSigma, isFinalSigma, casedAhead_append hfront, casedAhead_append hback]

end Sigma

theorem lower_isInfix {part s : String} {before after : List Char}
    (hs : s.toList = before ++ part.toList ++ after)
    (hkept : KeepsSigmas before.reverse part.toList after) :
    (lower part).toList <:+: (lower s).toList := by
  have himage := lowerBetween_eq_lowerFrom_iff.mpr hkept
  have hbefore := lowerFrom_append [] before (part.toList ++ after)
  have hpart := lowerFrom_append before.reverse part.toList after
  rw [List.append_nil] at hbefore
  refine ⟨lowerBetween [] (part.toList ++ after) before,
    lowerFrom (part.toList.reverse ++ before.reverse) after, ?_⟩
  rw [lower, lower, String.toList_ofList, String.toList_ofList, hs, List.append_assoc before,
    hbefore, hpart, himage, List.append_assoc]

theorem lower_eq_empty_iff {s : String} : lower s = "" ↔ s = "" := by
  have himage (c : Char) (rest : List Char) : lowerAt [] c rest ≠ [] := by
    unfold lowerAt lowerChar
    split <;> split <;> simp
  rw [lower, ← String.toList_inj, String.toList_ofList, lowerFrom_eq, ← @String.toList_inj s]
  cases s.toList with
  | nil => rfl
  | cons c rest => simp [lowerBetween, himage]

end CodeAtlas.Text
