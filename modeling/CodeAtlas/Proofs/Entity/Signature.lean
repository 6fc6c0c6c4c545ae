import CodeAtlas.Proofs.Entity.Components

/-! # Signatures of overloads

The types of the parameters can be read off the text that a signature is made of, if each of them
is a type as it is written: its angle brackets are nested, and commas stand inside them only.
-/

namespace CodeAtlas.Uri

/-- The number of open angle brackets after a character, where none may be closed that is not open
and a comma stands inside of brackets only. -/
def openedAfter (opened : ℕ) (c : Char) : Option ℕ :=
  if c = '<' then some (opened + 1)
  else if c = '>' then if opened = 0 then none else some (opened - 1)
  else if c = ',' then if opened = 0 then none else some opened
  else some opened

/-- Angle brackets are nested and no comma stands outside of them, where some are open before. -/
def isNested (opened : ℕ) : List Char → Bool
  | [] => opened == 0
  | c :: cs => (openedAfter opened c).any fun opened => isNested opened cs

structure IsTypeText (s : String) : Prop where
  ne_empty : s ≠ ""
  head?_ne : s.toList.head? ≠ some '<'
  nested : isNested 0 s.toList = true

/-- What follows an item of a list that is joined by commas. -/
def ClosesItem (rest : List Char) : Prop := rest = [] ∨ rest.head? = some ','

theorem ClosesItem.not_nested {c : Char} {cs rest rest' : List Char} (h : ClosesItem rest)
    (he : rest = c :: cs ++ rest') : isNested 0 (c :: cs) = false := by
  subst he
  rcases h with h | h
  · simp at h
  · obtain rfl : c = ',' := Option.some.inj h
    simp [isNested, openedAfter]

/-- The first item ends where its brackets are closed and a comma or nothing follows. -/
theorem nested_append_inj {opened : ℕ} {as bs rest rest' : List Char}
    (ha : isNested opened as = true) (hb : isNested opened bs = true) (hr : ClosesItem rest)
    (hr' : ClosesItem rest') (h : as ++ rest = bs ++ rest') : as = bs ∧ rest = rest' := by
  -- `opened` counts the brackets left open, so neither text can end at a comma inside the other.
  induction as generalizing opened bs with
  | nil =>
    obtain rfl : opened = 0 := by simpa [isNested] using ha
    cases bs with
    | nil => exact ⟨rfl, h⟩
    | cons b bs => exact absurd hb (by simp [hr.not_nested h])
  | cons a as ih =>
    cases bs with
    | nil =>
      obtain rfl : opened = 0 := by simpa [isNested] using hb
      exact absurd ha (by simp [hr'.not_nested h.symm])
    | cons b bs =>
      obtain ⟨rfl, htail⟩ := List.cons.inj h
      obtain ⟨opened', ho, ha⟩ := (Option.any_eq_true ..).mp ha
      rw [isNested, ho, Option.any_some] at hb
      obtain ⟨rfl, hrest⟩ := ih ha hb htail
      exact ⟨rfl, hrest⟩

theorem intercalate_cons (s : List Char) (ss : List (List Char)) :
    [','].intercalate (s :: ss) = s ++ ss.flatMap (',' :: ·) := by
  induction ss generalizing s with
  | nil => simp
  | cons s' ss ih => simp [List.intercalate_cons_cons, ih]

theorem closesItem_flatMap (ss : List (List Char)) : ClosesItem (ss.flatMap (',' :: ·)) := by
  cases ss with
  | nil => exact Or.inl rfl
  | cons s ss => exact Or.inr (by simp)

theorem flatMap_comma_inj {ss ts : List (List Char)} (hs : ∀ s ∈ ss, isNested 0 s = true)
    (ht : ∀ t ∈ ts, isNested 0 t = true)
    (h : ss.flatMap (',' :: ·) = ts.flatMap (',' :: ·)) : ss = ts := by
  induction ss generalizing ts with
  | nil =>
    cases ts with
    | nil => rfl
    | cons t ts => simp at h
  | cons s ss ih =>
    cases ts with
    | nil => simp at h
    | cons t ts =>
      rw [List.forall_mem_cons] at hs ht
      rw [List.flatMap_cons, List.flatMap_cons, List.cons_append, List.cons_append] at h
      obtain ⟨rfl, htail⟩ := nested_append_inj hs.1 ht.1 (closesItem_flatMap ss)
        (closesItem_flatMap ts) (List.cons.inj h).2
      rw [ih hs.2 ht.2 htail]

/-- The items of a joined list can be read off it. -/
theorem intercalate_comma_inj {ss ts : List (List Char)}
    (hs : ∀ s ∈ ss, s ≠ [] ∧ isNested 0 s = true)
    (ht : ∀ t ∈ ts, t ≠ [] ∧ isNested 0 t = true)
    (h : [','].intercalate ss = [','].intercalate ts) : ss = ts := by
  cases ss with
  | nil =>
    cases ts with
    | nil => rfl
    | cons t ts =>
      rw [intercalate_cons] at h
      exact absurd (List.append_eq_nil_iff.mp h.symm).1 (ht t List.mem_cons_self).1
  | cons s ss =>
    cases ts with
    | nil =>
      rw [intercalate_cons] at h
      exact absurd (List.append_eq_nil_iff.mp h).1 (hs s List.mem_cons_self).1
    | cons t ts =>
      refine flatMap_comma_inj (fun s hm => (hs s hm).2) (fun t hm => (ht t hm).2) ?_
      rw [intercalate_cons, intercalate_cons] at h
      simp [h]

theorem toList_joined (ts : List String) : (",".intercalate (ts.map normalizeName)).toList =
    [','].intercalate (ts.map fun t => (normalizeName t).toList) := by
  rw [String.toList_intercalate, List.map_map]
  rfl

/-- The text of a list of types that is not empty is the joined list, which opens no bracket. -/
theorem signatureText_cons {t : String} (ht : IsTypeText (normalizeName t)) (ts : List String) :
    signatureText (t :: ts) = ",".intercalate ((t :: ts).map normalizeName) ∧
      (signatureText (t :: ts)).toList.head? ≠ some '<' := by
  have hne : (normalizeName t).toList ≠ [] := by simpa using ht.ne_empty
  have hlist : (",".intercalate ((t :: ts).map normalizeName)).toList =
      (normalizeName t).toList ++
        (ts.map fun t => (normalizeName t).toList).flatMap (',' :: ·) := by
    rw [toList_joined, List.map_cons, intercalate_cons]
  have hempty : ",".intercalate ((t :: ts).map normalizeName) ≠ "" := by
    rw [Ne, ← String.toList_eq_nil_iff, hlist]
    simp [hne]
  have htext : signatureText (t :: ts) = ",".intercalate ((t :: ts).map normalizeName) := by
    simp only [signatureText, String.isEmpty_iff, hempty, if_false]
  refine ⟨htext, ?_⟩
  rw [htext, hlist, List.head?_append_of_ne_nil _ hne]
  exact ht.head?_ne

/-- Overloads have one text only if their parameters have the same types in canonical form. -/
theorem signatureText_eq_iff {ts us : List String} (ht : ∀ t ∈ ts, IsTypeText (normalizeName t))
    (hu : ∀ u ∈ us, IsTypeText (normalizeName u)) :
    signatureText ts = signatureText us ↔ ts.map normalizeName = us.map normalizeName := by
  refine ⟨fun h => ?_, fun h => by rw [signatureText, signatureText, h]⟩
  cases ts with
  | nil =>
    cases us with
    | nil => rfl
    | cons u us =>
      refine absurd ?_ (signatureText_cons (hu u List.mem_cons_self) us).2
      rw [← h]
      rfl
  | cons t ts =>
    cases us with
    | nil =>
      refine absurd ?_ (signatureText_cons (ht t List.mem_cons_self) ts).2
      rw [h]
      rfl
    | cons u us =>
      rw [(signatureText_cons (ht t List.mem_cons_self) ts).1,
        (signatureText_cons (hu u List.mem_cons_self) us).1, ← String.toList_inj, toList_joined,
        toList_joined] at h
      have hinj : Function.Injective String.toList := fun _ _ => String.toList_inj.mp
      have := intercalate_comma_inj ?_ ?_ h
      · rw [← List.map_inj_right hinj]
        simpa only [List.map_map, Function.comp_def] using this
      · simp only [List.mem_map, forall_exists_index, and_imp, forall_apply_eq_imp_iff₂]
        exact fun t hm => ⟨by simpa using (ht t hm).ne_empty, (ht t hm).nested⟩
      · simp only [List.mem_map, forall_exists_index, and_imp, forall_apply_eq_imp_iff₂]
        exact fun u hm => ⟨by simpa using (hu u hm).ne_empty, (hu u hm).nested⟩

/-- Two lists of parameter types have one text exactly if they are equally long and the types at
each place have one canonical form. No list but the empty one has the text of the empty list. -/
theorem overloads_share_text_iff {ts us : List String}
    (ht : ∀ t ∈ ts, IsTypeText (normalizeName t)) (hu : ∀ u ∈ us, IsTypeText (normalizeName u)) :
    (signatureText ts = signatureText us ↔ ts.length = us.length ∧
      ∀ (i : ℕ) (h : i < ts.length) (h' : i < us.length),
        normalizeName ts[i] = normalizeName us[i]) ∧
      (signatureText [] = signatureText us ↔ us = []) := by
  constructor
  · rw [signatureText_eq_iff ht hu, List.ext_getElem_iff]
    simp only [List.length_map, List.getElem_map]
  · have hnone : ∀ t ∈ [], IsTypeText (normalizeName t) := List.forall_mem_nil _
    rw [signatureText_eq_iff hnone hu, List.map_nil, eq_comm, List.map_eq_nil_iff]

def sampleTypes : List String := ["Map<String, List<Integer>>", "int"]

def sampleTypesSpaced : List String := ["Map< String ,List< Integer > >", "int "]

theorem sampleTypes_share_text :
    (∀ t ∈ sampleTypes, IsTypeText (normalizeName t)) ∧
      (∀ u ∈ sampleTypesSpaced, IsTypeText (normalizeName u)) ∧
      signatureText sampleTypes = signatureText sampleTypesSpaced ∧
      signatureText [] ≠ signatureText sampleTypesSpaced := by
  have hmap : IsTypeText "Map<String,List<Integer>>" :=
    ⟨by decide +kernel, by decide +kernel, by decide +kernel⟩
  have hint : IsTypeText "int" := ⟨by decide +kernel, by decide +kernel, by decide +kernel⟩
  have hforms : sampleTypes.map normalizeName = ["Map<String,List<Integer>>", "int"] := by
    decide +kernel
  have hforms' : sampleTypesSpaced.map normalizeName = ["Map<String,List<Integer>>", "int"] := by
    decide +kernel
  have ht : ∀ t ∈ sampleTypes, IsTypeText (normalizeName t) := by
    rw [← List.forall_mem_map (P := IsTypeText), hforms]
    simp [hmap, hint]
  have hu : ∀ u ∈ sampleTypesSpaced, IsTypeText (normalizeName u) := by
    rw [← List.forall_mem_map (P := IsTypeText), hforms']
    simp [hmap, hint]
  obtain ⟨hshare, hempty⟩ := overloads_share_text_iff ht hu
  refine ⟨ht, hu, hshare.mpr ⟨rfl, ?_⟩, fun h => List.cons_ne_nil _ _ (hempty.mp h)⟩
  intro i h h'
  have := congrArg (·[i]?) (hforms.trans hforms'.symm)
  simpa [h, h'] using this

end CodeAtlas.Uri
