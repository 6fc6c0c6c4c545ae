import Mathlib.Order.Lattice

/-! # Stable sorting

A sorted list is determined by what it keeps in each class of tied items. Merge sort keeps every
class as it is, so sorting by a second key and then by a first one is sorting by both.
-/

namespace CodeAtlas

variable {α κ : Type}

/-- A comparison that is transitive and total; different items may be tied. -/
structure IsOrder (le : α → α → Bool) : Prop where
  trans : ∀ a b c, le a b → le b c → le a c
  total : ∀ a b, le a b || le b a

/-- Two items of which either may come first. -/
def tied (le : α → α → Bool) (a b : α) : Bool := le a b && le b a

theorem tied_iff {le : α → α → Bool} {a b : α} :
    tied le a b = true ↔ le a b = true ∧ le b a = true := by
  simp [tied]

/-- Compares by a first key, and among ties by a second one. -/
def lex (first second : α → α → Bool) (a b : α) : Bool := first a b && (!first b a || second a b)

theorem isOrder_key [LinearOrder κ] (key : α → κ) : IsOrder fun a b => decide (key a ≤ key b) where
  trans a b c := by simpa using le_trans
  total a b := by simpa using le_total (key a) (key b)

namespace IsOrder

variable {le first second : α → α → Bool} (h : IsOrder le)

include h

theorem refl (a : α) : le a a = true := by simpa using h.total a a

theorem tied_self (a : α) : tied le a a = true := tied_iff.mpr ⟨h.refl a, h.refl a⟩

theorem sorted_mergeSort (l : List α) : (l.mergeSort le).Pairwise fun a b => le a b = true :=
  List.pairwise_mergeSort h.trans h.total l

theorem filter_tied_mergeSort (l : List α) (a : α) :
    (l.mergeSort le).filter (tied le a) = l.filter (tied le a) := by
  have hsorted : (l.filter (tied le a)).Pairwise fun b c => le b c = true := by
    refine List.pairwise_iff_forall_sublist.mpr fun {b c} hbc => ?_
    have hb := tied_iff.mp (List.mem_filter.mp (hbc.subset (a := b) (by simp))).2
    have hc := tied_iff.mp (List.mem_filter.mp (hbc.subset (a := c) (by simp))).2
    exact h.trans b a c hb.2 hc.1
  have hsub : (l.filter (tied le a)).Sublist ((l.mergeSort le).filter (tied le a)) := by
    have := (List.sublist_mergeSort h.trans h.total hsorted List.filter_sublist).filter (tied le a)
    simpa [List.filter_filter] using this
  refine (hsub.eq_of_length ?_).symm
  exact ((List.mergeSort_perm l le).filter (tied le a)).length_eq.symm

/-- A sorted list is determined by its classes of tied items. -/
theorem eq_of_filter_tied {l l' : List α} (hl : l.Pairwise fun a b => le a b = true)
    (hl' : l'.Pairwise fun a b => le a b = true)
    (hf : ∀ a, l.filter (tied le a) = l'.filter (tied le a)) : l = l' := by
  have hmem : ∀ {m m' : List α}, (∀ a, m.filter (tied le a) = m'.filter (tied le a)) →
      ∀ a ∈ m, a ∈ m' := fun hf a ha =>
    (List.mem_filter.mp (hf a ▸ List.mem_filter.mpr ⟨ha, h.tied_self a⟩)).1
  induction l generalizing l' with
  | nil =>
    cases l' with
    | nil => rfl
    | cons b l' => exact absurd (hmem (fun a => (hf a).symm) b (List.mem_cons_self ..)) (by simp)
  | cons a l ih =>
    cases l' with
    | nil => exact absurd (hmem hf a (List.mem_cons_self ..)) (by simp)
    | cons b l' =>
      have hab : le a b = true := by
        have hb := hmem (fun c => (hf c).symm) b (List.mem_cons_self ..)
        rcases List.mem_cons.mp hb with rfl | hb
        · exact h.refl _
        · exact (List.pairwise_cons.mp hl).1 b hb
      have hba : le b a = true := by
        rcases List.mem_cons.mp (hmem hf a (List.mem_cons_self ..)) with rfl | ha
        · exact h.refl _
        · exact (List.pairwise_cons.mp hl').1 a ha
      obtain rfl : a = b := by
        have := hf a
        rw [List.filter_cons_of_pos (h.tied_self a),
          List.filter_cons_of_pos (tied_iff.mpr ⟨hab, hba⟩)] at this
        exact (List.cons.inj this).1
      refine congrArg _ (ih (List.pairwise_cons.mp hl).2 (List.pairwise_cons.mp hl').2 fun c => ?_)
      have := hf c
      by_cases hc : tied le c a = true
      · rw [List.filter_cons_of_pos hc, List.filter_cons_of_pos hc] at this
        exact (List.cons.inj this).2
      · rwa [List.filter_cons_of_neg hc, List.filter_cons_of_neg hc] at this

theorem eq_mergeSort {l l' : List α} (hl' : l'.Pairwise fun a b => le a b = true)
    (hf : ∀ a, l'.filter (tied le a) = l.filter (tied le a)) : l' = l.mergeSort le :=
  h.eq_of_filter_tied hl' (h.sorted_mergeSort l) fun a => by rw [hf, h.filter_tied_mergeSort]

/-- The order in which a list is given does not show in its sorted list, if no two of its items are
tied. -/
theorem mergeSort_eq_of_perm {l l' : List α} (hl : l.Perm l')
    (hanti : ∀ a ∈ l, ∀ b ∈ l, le a b = true → le b a = true → a = b) :
    l.mergeSort le = l'.mergeSort le := by
  refine List.Perm.eq_of_pairwise (fun a b ha hb => ?_) (h.sorted_mergeSort l)
    (h.sorted_mergeSort l')
    ((List.mergeSort_perm l le).trans (hl.trans (List.mergeSort_perm l' le).symm))
  exact hanti a (List.mem_mergeSort.mp ha) b (hl.mem_iff.mpr (List.mem_mergeSort.mp hb))

omit h

theorem lex (h : IsOrder first) (h' : IsOrder second) : IsOrder (lex first second) where
  trans a b c hab hbc := by
    have := h.trans a b c
    have := h.trans b c a
    have := h.trans c a b
    have := h'.trans a b c
    simp only [CodeAtlas.lex, Bool.and_eq_true, Bool.or_eq_true, Bool.not_eq_true'] at *
    grind
  total a b := by
    have := h.total a b
    have := h'.total a b
    simp only [CodeAtlas.lex, Bool.and_eq_true, Bool.or_eq_true, Bool.not_eq_true'] at *
    grind

theorem tied_lex {a b : α} :
    tied (CodeAtlas.lex first second) a b = (tied first a b && tied second a b) := by
  unfold tied CodeAtlas.lex
  cases first a b <;> cases first b a <;> cases second a b <;> cases second b a <;> rfl

/-- Sorting by a second key and then by a first one is sorting by both. -/
theorem mergeSort_mergeSort (h : IsOrder first) (h' : IsOrder second) (l : List α) :
    (l.mergeSort second).mergeSort first = l.mergeSort (CodeAtlas.lex first second) := by
  have hfilter : ∀ (m : List α) (a : α), m.filter (tied (CodeAtlas.lex first second) a) =
      (m.filter (tied first a)).filter (tied second a) := by
    intro m a
    rw [List.filter_filter]
    exact List.filter_congr fun b _ => by rw [tied_lex, Bool.and_comm]
  refine (h.lex h').eq_mergeSort (List.pairwise_iff_forall_sublist.mpr fun {a b} hab => ?_)
    fun a => ?_
  · have hle : first a b = true :=
      List.pairwise_iff_forall_sublist.mp (h.sorted_mergeSort _) hab
    cases hba : first b a with
    | false => simp [CodeAtlas.lex, hle, hba]
    | true =>
      have hsub := hab.filter (tied first a)
      rw [h.filter_tied_mergeSort] at hsub
      have hpair : [a, b].filter (tied first a) = [a, b] := by
        simp [tied, h.refl, hle, hba]
      rw [hpair] at hsub
      have hsecond := List.pairwise_iff_forall_sublist.mp (h'.sorted_mergeSort l)
        (hsub.trans List.filter_sublist)
      simp [CodeAtlas.lex, hle, hsecond]
  · rw [hfilter, hfilter, h.filter_tied_mergeSort, List.filter_filter,
      List.filter_congr (fun b _ => Bool.and_comm ..), ← List.filter_filter,
      h'.filter_tied_mergeSort, List.filter_filter,
      List.filter_congr (fun b _ => Bool.and_comm ..), ← List.filter_filter]

end IsOrder

theorem sorted_lt_mergeSort [LinearOrder κ] {l : List κ} (h : l.Nodup) :
    (l.mergeSort fun a b => decide (a ≤ b)).Pairwise (· < ·) := by
  have hle := (isOrder_key (id : κ → κ)).sorted_mergeSort l
  have hne := (List.mergeSort_perm l fun a b => decide (a ≤ b)).nodup_iff.mpr h
  exact (hle.and hne).imp fun hab => lt_of_le_of_ne (of_decide_eq_true hab.1) hab.2

end CodeAtlas
