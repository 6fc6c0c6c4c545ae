import Mathlib.Data.List.TakeWhile
import CodeAtlas.Text.Blank
import CodeAtlas.Text.Lines

/-! # The lines of a joined text

Of texts joined by line feeds the lines with something on them are those of the texts, whatever
line ends the blank ones among the texts hold.
-/

namespace CodeAtlas.Text

def IsBreak (c : Char) : Prop := c = '\n' ∨ c = '\r'

instance : DecidablePred IsBreak := fun c => inferInstanceAs (Decidable (c = '\n' ∨ c = '\r'))

theorem trim_of_allBlank {s : String} (h : allBlank s = true) : trim s = "" := by
  have hall : ∀ c ∈ s.toList, isBlank c = true := List.all_eq_true.mp h
  rw [trim, trimWhere, List.dropWhile_eq_nil_iff.mpr hall]
  rfl

theorem cutLines_ne_nil (cs : List Char) : cutLines cs ≠ [] := by
  cases cs with
  | nil => simp [cutLines]
  | cons c rest =>
    rw [cutLines]
    split
    · simp
    · split <;> simp

theorem cutLines_cons {c : Char} (hc : c ≠ '\n') {cs line : List Char} {lines : List (List Char)}
    (h : cutLines cs = line :: lines) : cutLines (c :: cs) = (c :: line) :: lines := by
  rw [cutLines, beq_false_of_ne hc, h]
  rfl

theorem cutLines_append (xs ys : List Char) :
    cutLines (xs ++ '\n' :: ys) = cutLines xs ++ cutLines ys := by
  induction xs with
  | nil => simp [cutLines]
  | cons c xs ih =>
    by_cases hc : c = '\n'
    · subst hc
      simp [cutLines, ih]
    · obtain ⟨line, lines, hlines⟩ := List.exists_cons_of_ne_nil (cutLines_ne_nil xs)
      rw [hlines] at ih
      rw [cutLines_cons hc hlines, List.cons_append, cutLines_cons hc ih]
      rfl

theorem cutLines_of_unbroken {cs : List Char} (h : '\n' ∉ cs) : cutLines cs = [cs] := by
  induction cs with
  | nil => rfl
  | cons c cs ih =>
    rw [List.mem_cons, not_or] at h
    exact cutLines_cons (Ne.symm h.1) (ih h.2)

theorem mem_of_mem_cutLines {cs line : List Char} {c : Char} (hline : line ∈ cutLines cs)
    (hc : c ∈ line) : c ∈ cs := by
  induction cs generalizing line with
  | nil =>
    obtain rfl := List.mem_singleton.mp hline
    exact hc
  | cons d cs ih =>
    by_cases hd : d = '\n'
    · rw [cutLines, if_pos (by simp [hd]), List.mem_cons] at hline
      rcases hline with rfl | hline
      · exact absurd hc List.not_mem_nil
      · exact List.mem_cons_of_mem _ (ih hline hc)
    · obtain ⟨first, lines, hlines⟩ := List.exists_cons_of_ne_nil (cutLines_ne_nil cs)
      rw [cutLines_cons hd hlines, List.mem_cons] at hline
      rw [hlines] at ih
      rcases hline with rfl | hline
      · rcases List.mem_cons.mp hc with rfl | hc
        · exact List.mem_cons_self
        · exact List.mem_cons_of_mem _ (ih List.mem_cons_self hc)
      · exact List.mem_cons_of_mem _ (ih (List.mem_cons_of_mem _ hline) hc)

theorem unifyBreaks_of_unbroken {cs : List Char} (h : '\r' ∉ cs) : unifyBreaks cs = cs := by
  induction cs with
  | nil => rfl
  | cons c cs ih =>
    rw [List.mem_cons, not_or] at h
    rw [unifyBreaks.eq_4 _ _ (fun _ hc _ => h.1 hc.symm) (fun hc => h.1 hc.symm), ih h.2]

theorem mem_of_mem_unifyBreaks {cs : List Char} {c : Char} (hc : c ∈ unifyBreaks cs) :
    c ∈ cs ∨ c = '\n' := by
  fun_induction unifyBreaks cs with
  | case1 => exact absurd hc List.not_mem_nil
  | case2 rest ih | case3 rest _ ih | case4 d rest _ _ ih =>
    rcases List.mem_cons.mp hc with rfl | hc
    · simp
    · rcases ih hc with h | h <;> simp [h]

/-- A carriage return before a line feed makes one line end with it, and no second one. -/
theorem exists_unifyBreaks_append (xs : List Char) :
    ∃ xs', (unifyBreaks xs = xs' ∨ unifyBreaks xs = xs' ++ ['\n']) ∧
      ∀ ys, unifyBreaks (xs ++ '\n' :: ys) = xs' ++ '\n' :: unifyBreaks ys := by
  fun_induction unifyBreaks xs with
  | case1 => exact ⟨[], Or.inl rfl, fun ys => by simp [unifyBreaks]⟩
  | case2 rest ih =>
    obtain ⟨xs', hxs, happend⟩ := ih
    refine ⟨'\n' :: xs', ?_, fun ys => ?_⟩
    · rcases hxs with h | h <;> simp [h]
    · simp [unifyBreaks, happend ys]
  | case3 rest hrest ih =>
    obtain ⟨xs', hxs, happend⟩ := ih
    cases rest with
    -- A return at the end takes up the break behind it.
    | nil => exact ⟨[], Or.inr rfl, fun ys => by simp [unifyBreaks]⟩
    | cons d rest =>
      have hd : d ≠ '\n' := fun hd => hrest rest (hd ▸ rfl)
      refine ⟨'\n' :: xs', ?_, fun ys => ?_⟩
      · rcases hxs with h | h <;> simp [h]
      · rw [List.cons_append, List.cons_append, unifyBreaks.eq_3 _ ?_, ← List.cons_append,
          happend ys]
        · rfl
        · rintro tail htail
          exact hd (List.cons.inj htail).1
  | case4 d rest hfeed hreturn ih =>
    obtain ⟨xs', hxs, happend⟩ := ih
    have hd : d ≠ '\r' := fun hd => hreturn hd
    refine ⟨d :: xs', ?_, fun ys => ?_⟩
    · rcases hxs with h | h <;> simp [h]
    · rw [List.cons_append, unifyBreaks.eq_4 _ _ (fun _ h _ => hd h) hd, happend ys]
      rfl

def fullLines (cs : List Char) : List (List Char) :=
  (cutLines (unifyBreaks cs)).filter fun line => !line.all isBlank

theorem fullLines_append (xs ys : List Char) :
    fullLines (xs ++ '\n' :: ys) = fullLines xs ++ fullLines ys := by
  obtain ⟨xs', hxs, happend⟩ := exists_unifyBreaks_append xs
  have hfull : (cutLines xs').filter (fun line => !line.all isBlank) = fullLines xs := by
    rcases hxs with h | h
    · rw [fullLines, h]
    · rw [fullLines, h, cutLines_append, List.filter_append]
      simp [cutLines]
  rw [fullLines, happend, cutLines_append, List.filter_append, hfull, ← fullLines]

theorem fullLines_of_blank {cs : List Char} (h : cs.all isBlank = true) : fullLines cs = [] := by
  refine List.filter_eq_nil_iff.mpr fun line hline => ?_
  have hblank : line.all isBlank = true := by
    refine List.all_eq_true.mpr fun c hc => ?_
    rcases mem_of_mem_unifyBreaks (mem_of_mem_cutLines hline hc) with hc | rfl
    · exact List.all_eq_true.mp h c hc
    · decide
  simp [hblank]

theorem fullLines_of_unbroken {cs : List Char} (hbreak : ∀ c ∈ cs, ¬ IsBreak c)
    (hblank : cs.all isBlank = false) : fullLines cs = [cs] := by
  have hfeed : '\n' ∉ cs := fun h => hbreak _ h (Or.inl rfl)
  have hreturn : '\r' ∉ cs := fun h => hbreak _ h (Or.inr rfl)
  rw [fullLines, unifyBreaks_of_unbroken hreturn, cutLines_of_unbroken hfeed]
  simp [hblank]

theorem fullLines_intercalate {parts : List (List Char)}
    (h : ∀ part ∈ parts, part.all isBlank = false → ∀ c ∈ part, ¬ IsBreak c) :
    fullLines (['\n'].intercalate parts) = parts.filter fun part => !part.all isBlank := by
  have hone {part : List Char} (hpart : part ∈ parts) :
      fullLines part = [part].filter fun part => !part.all isBlank := by
    cases hblank : part.all isBlank with
    | true => simp [fullLines_of_blank hblank, hblank]
    | false => simp [fullLines_of_unbroken (h part hpart hblank) hblank, hblank]
  induction parts with
  | nil => rfl
  | cons part parts ih =>
    have htail := ih (fun p hp => h p (List.mem_cons_of_mem _ hp))
      fun hp => hone (List.mem_cons_of_mem _ hp)
    cases parts with
    | nil => simpa using hone List.mem_cons_self
    | cons next parts =>
      rw [List.intercalate_cons_cons, List.append_assoc, List.singleton_append, fullLines_append,
        hone List.mem_cons_self, htail, ← List.filter_append, List.singleton_append]

/-- The lines with something on them of texts joined by line feeds are those of the texts. -/
theorem filter_lines_intercalate {ls : List String}
    (h : ∀ l ∈ ls, allBlank l = false → ∀ c ∈ l.toList, ¬ IsBreak c) :
    (lines ("\n".intercalate ls)).filter (fun l => !allBlank l) =
      ls.filter fun l => !allBlank l := by
  have hparts : ∀ part ∈ ls.map String.toList, part.all isBlank = false →
      ∀ c ∈ part, ¬ IsBreak c := by simpa [allBlank] using h
  have hfeed : "\n".toList = ['\n'] := by decide
  have hblank : (fun l => !allBlank l) ∘ String.ofList = fun cs => !cs.all isBlank := by
    funext cs
    simp [allBlank]
  rw [lines, String.toList_intercalate, hfeed, List.filter_map, hblank, ← fullLines,
    fullLines_intercalate hparts, List.filter_map, List.map_map]
  have hofList : String.ofList ∘ String.toList = id := funext fun l => String.ofList_toList
  rw [hofList, List.map_id]
  rfl

end CodeAtlas.Text
