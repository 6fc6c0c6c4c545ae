import CodeAtlas.Proofs.Exchange.Ordinals

/-! # Reading a result again

Whatever a value holds, a result that is read from it can be written and read again, and stays as
it is: reading has put every part into the form in which it is written, and the stages into their
order.
-/

namespace CodeAtlas

section Records

@[simp] theorem cell_toValue (v : Value) : Cell.toValue v = v := rfl

@[simp] theorem map_cell_toValue (vs : List Value) : vs.map Cell.toValue = vs := List.map_id vs

@[simp] theorem option_map_cell_toValue (v : Option Value) : v.map Cell.toValue = v :=
  Option.map_id' ..

@[simp] theorem Parameter.map_toValue (p : Parameter Value) : p.map Cell.toValue = p := rfl

@[simp] theorem LocalVariable.map_toValue (v : LocalVariable Value) : v.map Cell.toValue = v := by
  simp [LocalVariable.map]

@[simp] theorem Method.map_toValue (m : Method Value) : m.map Cell.toValue = m := by
  simp [Method.map]

@[simp] theorem Field.map_toValue (f : Field Value) : f.map Cell.toValue = f := by
  simp [Field.map]

@[simp] theorem TypeDeclaration.map_toValue (t : TypeDeclaration Value) :
    t.map Cell.toValue = t := by
  simp [TypeDeclaration.map]

@[simp] theorem Stage.map_toValue (s : Stage Value) : s.map Cell.toValue = s := by
  simp [Stage.map]

@[simp] theorem SourceFile.map_toValue (s : SourceFile Value) : s.map Cell.toValue = s := by
  simp [SourceFile.map]

@[simp] theorem FileExtraction.map_toValue (e : FileExtraction Value) :
    e.map Cell.toValue = e := by
  simp [FileExtraction.map]

end Records

theorem legible_of_cellAt? {v : Value} {key : String} {x : Option Value}
    (h : cellAt? v key = .ok x) : Legible x := by
  obtain ⟨given, -, hx⟩ := bind_eq_ok_iff.mp h
  cases hx
  intro a ha
  obtain ⟨w, -, hw⟩ := Option.bind_eq_some_iff.mp ha
  rintro (rfl : a = .null)
  unfold Value.present? at hw
  split at hw <;> simp_all

theorem LocalVariable.legible_of_ofValue {v : Value} {x : LocalVariable Value}
    (h : LocalVariable.ofValue v = .ok x) : Legible x.initialValue := by
  simp only [LocalVariable.ofValue, bind_eq_ok_iff] at h
  obtain ⟨_, -, _, -, initial, hinitial, heq⟩ := h
  cases heq
  exact legible_of_cellAt? hinitial

theorem Field.legible_of_ofValue {v : Value} {x : Field Value} (h : Field.ofValue v = .ok x) :
    Legible x.initialValue := by
  simp only [Field.ofValue, bind_eq_ok_iff] at h
  obtain ⟨_, -, _, -, _, -, _, -, initial, hinitial, heq⟩ := h
  cases heq
  exact legible_of_cellAt? hinitial

theorem Method.isLegible_of_ofValue {v : Value} {m : Method Value}
    (h : Method.ofValue v = .ok m) : m.IsLegible := by
  simp only [Method.ofValue, bind_eq_ok_iff] at h
  obtain ⟨_, -, _, -, _, -, _, -, _, -, _, -, body, hbody, _, -, _, -, locals, hlocals, heq⟩ := h
  cases heq
  refine ⟨legible_of_cellAt? hbody, fun x hx => ?_⟩
  obtain ⟨w, -, hw⟩ := exists_of_mem_mapM hlocals hx
  exact LocalVariable.legible_of_ofValue hw

theorem TypeDeclaration.isLegible_of_ofValue {v : Value} {t : TypeDeclaration Value}
    (h : TypeDeclaration.ofValue v = .ok t) : t.IsLegible := by
  simp only [TypeDeclaration.ofValue, bind_eq_ok_iff] at h
  obtain ⟨name, -, _, -, _, -, _, -, _, -, methods, hmethods, _, -, fields, hfields, h⟩ := h
  split at h
  · next hname =>
    cases h
    refine ⟨hname, fun m hm => ?_, fun f hf => ?_⟩
    · obtain ⟨w, -, hw⟩ := exists_of_mem_mapM hmethods hm
      exact Method.isLegible_of_ofValue hw
    · obtain ⟨w, -, hw⟩ := exists_of_mem_mapM hfields hf
      exact Field.legible_of_ofValue hw
  · cases h

theorem Stage.of_ofValue {tag : StageTag} {ordinal : ℕ} {v : Value} {s : Stage Value}
    (h : Stage.ofValue tag ordinal v = .ok s) : s.tag = tag ∧ Legible s.binding := by
  simp only [Stage.ofValue, bind_eq_ok_iff] at h
  obtain ⟨_, -, _, -, binding, hbinding, _, -, _, -, _, -, _, -, heq⟩ := h
  cases heq
  exact ⟨rfl, legible_of_cellAt? hbinding⟩

theorem of_stagesOfValues {tag : StageTag} {next : ℕ} {vs : List Value} {ss : List (Stage Value)}
    (h : stagesOfValues tag next vs = .ok ss) : ∀ s ∈ ss, s.tag = tag ∧ Legible s.binding := by
  induction vs generalizing next ss with
  | nil =>
    cases h
    exact List.forall_mem_nil _
  | cons v vs ih =>
    obtain ⟨s, rest, hs, hrest, rfl⟩ := stagesOfValues_cons_eq_ok_iff.mp h
    exact List.forall_mem_cons.mpr ⟨Stage.of_ofValue hs, ih hrest⟩

theorem of_stagesByTag {sections : Value} {tags : List StageTag} {next : ℕ}
    {ss : List (Stage Value)} (htags : tags.Pairwise fun s t => s.rank < t.rank)
    (h : stagesByTag sections next tags = .ok ss) :
    (∀ s ∈ ss, s.tag ∈ tags ∧ Legible s.binding) ∧
      ss.Pairwise fun a b => decide (a.tag.rank ≤ b.tag.rank) = true := by
  induction tags generalizing next ss with
  | nil =>
    cases h
    exact ⟨List.forall_mem_nil _, .nil⟩
  | cons tag tags ih =>
    obtain ⟨vs, here, rest, -, hhere, hrest, rfl⟩ := stagesByTag_cons_eq_ok_iff.mp h
    obtain ⟨hfirst, htags⟩ := List.pairwise_cons.mp htags
    have hhere := of_stagesOfValues hhere
    obtain ⟨hrest, hsorted⟩ := ih htags hrest
    refine ⟨fun s hs => ?_, List.pairwise_append.mpr ⟨?_, hsorted, fun a ha b hb => ?_⟩⟩
    · rcases List.mem_append.mp hs with hs | hs
      · exact ⟨by simp [(hhere s hs).1], (hhere s hs).2⟩
      · exact ⟨List.mem_cons_of_mem _ (hrest s hs).1, (hrest s hs).2⟩
    · refine List.pairwise_of_forall_mem_list fun a ha b hb => ?_
      simp [(hhere a ha).1, (hhere b hb).1]
    · rw [(hhere a ha).1]
      exact decide_eq_true (hfirst b.tag (hrest b hb).1).le

/-- Stages that are taken tag by tag and sorted by ordinal are sorted by ordinal and tag. -/
theorem sortStages_eq_mergeSort_precedes {ss : List (Stage Value)}
    (h : ss.Pairwise fun a b => decide (a.tag.rank ≤ b.tag.rank) = true) :
    sortStages ss = ss.mergeSort Stage.precedes := by
  conv_lhs => rw [← List.mergeSort_of_pairwise h]
  rw [Stage.precedes_eq_lex, ← isOrder_ordinal.mergeSort_mergeSort isOrder_tag]
  rfl

theorem isOrder_stagePrecedes : IsOrder (Stage.precedes : Stage Value → Stage Value → Bool) :=
  Stage.precedes_eq_lex ▸ isOrder_ordinal.lex isOrder_tag

/-- What is read can be written without loss, and reading it back changes nothing. -/
theorem FileExtraction.of_ofValue {v : Value} {e : FileExtraction Value}
    (h : FileExtraction.ofValue v = .ok e) : e.IsLegible ∧ e.readBack = e := by
  simp only [FileExtraction.ofValue, bind_eq_ok_iff] at h
  obtain ⟨_, -, ss, hss, _, -, package, hpackage, _, -, _, -, types, htypes, heq⟩ := h
  cases heq
  obtain ⟨hstages, hsorted⟩ := of_stagesByTag StageTag.all_increasing hss
  constructor
  · refine ⟨legible_of_cellAt? hpackage, fun t ht => ?_, fun s hs => ?_⟩
    · obtain ⟨w, -, hw⟩ := exists_of_mem_mapM htypes ht
      exact TypeDeclaration.isLegible_of_ofValue hw
    · exact (hstages s ((sortStages_perm ss).mem_iff.mp hs)).2
  · have hprecedes := isOrder_stagePrecedes.sorted_mergeSort ss
    rw [readBack, sortStages_eq_mergeSort_precedes hsorted, List.mergeSort_of_pairwise hprecedes]

/-- A result that is read from any value is written and read again as it is. -/
theorem FileResult.ofValue_toValue_of_ofValue {v : Value} {r : FileResult Value}
    (h : FileResult.ofValue v = .ok r) : FileResult.ofValue r.toValue = .ok r := by
  simp only [FileResult.ofValue, bind_eq_ok_iff] at h
  obtain ⟨failed, -, h⟩ := h
  cases failed with
  | true =>
    obtain ⟨path, -, h⟩ := bind_eq_ok_iff.mp h
    obtain ⟨reason, -, h⟩ := bind_eq_ok_iff.mp h
    cases h
    exact FileResult.ofValue_failed path _
  | false =>
    obtain ⟨e, he, heq⟩ := bind_eq_ok_iff.mp h
    cases heq
    obtain ⟨hlegible, hsame⟩ := FileExtraction.of_ofValue he
    rw [FileResult.ofValue_extracted, FileExtraction.ofValue_toFields hlegible, hsame,
      FileExtraction.map_toValue]
    rfl

end CodeAtlas
