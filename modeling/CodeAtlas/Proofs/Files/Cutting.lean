import CodeAtlas.Files.Path

/-! # Cutting a text

A text is cut in one place at a separator and nowhere else.
-/

namespace CodeAtlas.Path

variable {sep : Char}

theorem takeWhile_bne_append {front back : List Char} (hfront : sep ∉ front)
    (hback : ∀ c ∈ back.head?, c = sep) : (front ++ back).takeWhile (· != sep) = front := by
  have hne : ∀ c ∈ front, (c != sep) = true := by
    rintro c hc
    refine bne_iff_ne.mpr ?_
    rintro rfl
    exact hfront hc
  rw [List.takeWhile_append_of_pos hne]
  cases back with
  | nil => simp
  | cons c back => simp [hback c rfl]

theorem splitAt_ne_nil (sep : Char) (cs : List Char) : splitAt sep cs ≠ [] := by
  cases cs with
  | nil => simp [splitAt]
  | cons c cs =>
    rw [splitAt]
    split
    · simp
    · split <;> simp

theorem splitAt_of_not_mem {cs : List Char} (h : sep ∉ cs) : splitAt sep cs = [cs] := by
  induction cs with
  | nil => rfl
  | cons c cs ih =>
    rw [List.mem_cons, not_or] at h
    obtain ⟨hc, hcs⟩ := h
    rw [splitAt, if_neg (by simpa using Ne.symm hc), ih hcs]

theorem splitAt_append (front back : List Char) :
    splitAt sep (front ++ sep :: back) = splitAt sep front ++ splitAt sep back := by
  induction front with
  | nil => simp [splitAt]
  | cons c front ih =>
    rw [List.cons_append, splitAt, splitAt, ih]
    split
    · rfl
    · obtain ⟨part, parts, hparts⟩ := List.exists_cons_of_ne_nil (splitAt_ne_nil sep front)
      rw [hparts]
      rfl

end CodeAtlas.Path
