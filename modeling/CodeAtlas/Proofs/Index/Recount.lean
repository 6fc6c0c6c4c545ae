import CodeAtlas.Proofs.Index.Surfaces

/-! # Counting twice

An index counts what stands in it, and a run counts the results that it records. Both counts are
the same for an index of some results and a run that has recorded, of those with one path, the last
one only.
-/

namespace CodeAtlas

namespace Index

def lastOfEach : List (FileResult String) → List (FileResult String)
  | [] => []
  | r :: rs => if ∃ r' ∈ rs, r'.path = r.path then lastOfEach rs else r :: lastOfEach rs

theorem lastOfEach_sublist (rs : List (FileResult String)) : (lastOfEach rs).Sublist rs := by
  induction rs with
  | nil => exact List.Sublist.refl _
  | cons r rs ih =>
    rw [lastOfEach]
    split
    · exact ih.cons r
    · exact ih.cons_cons r

theorem path_lastOfEach_pairwise (rs : List (FileResult String)) :
    (lastOfEach rs).Pairwise fun r r' => r.path ≠ r'.path := by
  induction rs with
  | nil => exact .nil
  | cons r rs ih =>
    rw [lastOfEach]
    split
    · exact ih
    · next hlast =>
      refine List.pairwise_cons.mpr ⟨fun r' hr' heq => hlast ⟨r', ?_, heq.symm⟩, ih⟩
      exact (lastOfEach_sublist rs).subset hr'

theorem latest?_cons (r : FileResult String) (rs : List (FileResult String)) (p : String) :
    latest? (r :: rs) p = (latest? rs p).or (if r.path = p then some r else none) := by
  rw [latest?, List.reverse_cons, List.find?_append, latest?]
  by_cases h : r.path = p <;> simp [h]

theorem path_of_latest? {rs : List (FileResult String)} {r : FileResult String} {p : String}
    (h : latest? rs p = some r) : r ∈ rs ∧ r.path = p :=
  ⟨List.mem_reverse.mp (List.mem_of_find?_eq_some h), by simpa using List.find?_some h⟩

theorem latest?_eq_none_iff {rs : List (FileResult String)} {p : String} :
    latest? rs p = none ↔ ¬ ∃ r ∈ rs, r.path = p := by
  simp [latest?]

theorem mem_lastOfEach_iff {rs : List (FileResult String)} {r : FileResult String} :
    r ∈ lastOfEach rs ↔ latest? rs r.path = some r := by
  induction rs with
  | nil => simp [lastOfEach, latest?]
  | cons r' rs ih =>
    rw [lastOfEach, latest?_cons]
    split
    -- The head gives way to a later result of its path.
    · next hlater =>
      rw [ih]
      cases hr : latest? rs r.path with
      | some last => simp
      | none =>
        have hne : r'.path ≠ r.path := by
          intro heq
          rw [heq] at hlater
          exact latest?_eq_none_iff.mp hr hlater
        simp [hne]
    · next hlast =>
      rw [List.mem_cons, ih]
      cases hr : latest? rs r.path with
      | some last =>
        obtain ⟨hmem, hpath⟩ := path_of_latest? hr
        have hne : r ≠ r' := by
          rintro rfl
          exact hlast ⟨last, hmem, hpath⟩
        simp [hne]
      | none =>
        constructor
        · rintro (rfl | h)
          · simp
          · cases h
        · intro h
          split at h
          · exact .inl (Option.some.inj h).symm
          · cases h

theorem filterMap_latest?_perm {rs : List (FileResult String)} {ps : List String}
    (hnodup : ps.Nodup) (hps : ∀ p, p ∈ ps ↔ ∃ r ∈ rs, r.path = p) :
    (ps.filterMap (latest? rs)).Perm (lastOfEach rs) := by
  have hne : ∀ {r r' : FileResult String}, r.path ≠ r'.path → r ≠ r' := fun h heq => h (heq ▸ rfl)
  refine (List.perm_ext_iff_of_nodup ?_ ((path_lastOfEach_pairwise rs).imp hne)).mpr fun r => ?_
  · refine hnodup.filterMap fun p p' r hr hr' => ?_
    exact (path_of_latest? hr).2.symm.trans (path_of_latest? hr').2
  · rw [List.mem_filterMap, mem_lastOfEach_iff]
    constructor
    · rintro ⟨p, -, hr⟩
      rwa [(path_of_latest? hr).2]
    · intro hr
      exact ⟨r.path, (hps _).mpr ⟨r, (path_of_latest? hr).1, rfl⟩, hr⟩

theorem find?_path_eq {entries : List Indexed} {ps : List String}
    (hps : entries.map (·.path) = ps.map .text) (hnodup : ps.Nodup) {e : Indexed}
    (he : e ∈ entries) : entries.find? (·.path.same e.path) = some e := by
  induction entries generalizing ps with
  | nil => cases he
  | cons e' entries ih =>
    obtain ⟨p, ps, rfl, hp, htail⟩ := List.map_eq_cons_iff.mp hps.symm
    rw [List.nodup_cons] at hnodup
    rw [List.find?_cons]
    rcases List.mem_cons.mp he with rfl | he
    · simp [Scalar.same]
    · have hmem : e.path ∈ ps.map Scalar.text := htail ▸ List.mem_map_of_mem he
      obtain ⟨q, hq, hqe⟩ := List.mem_map.mp hmem
      have hfalse : e'.path.same e.path = false := by
        rw [show e'.path = .text p from hp.symm, ← hqe, same_text, beq_eq_false_iff_ne]
        exact fun heq => hnodup.1 (heq ▸ hq)
      rw [hfalse]
      exact ih htail.symm hnodup.2 he

section Describes

variable {ix : Index} {rs : List (FileResult String)} (h : ix.Describes rs)

include h

theorem Describes.exists_results : ∃ rs' : List (FileResult String),
    rs'.Perm (lastOfEach rs) ∧ ix.entries.map (·.result) = rs'.map (·.map .text) := by
  obtain ⟨ps, hps, hnodup, hmem⟩ := h.paths
  refine ⟨ps.filterMap (latest? rs), filterMap_latest?_perm hnodup hmem, ?_⟩
  have hfound : ix.entries.map (fun e => some e.result) =
      ps.map fun p => (latest? rs p).map (·.map .text) := by
    calc ix.entries.map (fun e => some e.result)
      _ = ix.entries.map fun e => (ix.entries.find? (·.path.same e.path)).map (·.result) :=
        List.map_congr_left fun e he => by rw [find?_path_eq hps hnodup he]; rfl
      _ = (ps.map Scalar.text).map fun k => (ix.entries.find? (·.path.same k)).map (·.result) := by
        rw [← hps, List.map_map]
        rfl
      _ = ps.map fun p => (latest? rs p).map (·.map .text) := by
        rw [List.map_map]
        exact List.map_congr_left fun p _ => h.result p
  have hkept := congrArg (List.filterMap id) hfound
  rw [List.filterMap_map, List.filterMap_map] at hkept
  rw [List.map_filterMap]
  simpa [Function.comp_def] using hkept

theorem Describes.exists_extractions : ∃ rs' : List (FileResult String),
    rs'.Perm (lastOfEach rs) ∧ ix.entries.length = rs'.length ∧
      ix.extractions = (rs'.filterMap (·.extraction?)).map (·.map .text) := by
  obtain ⟨rs', hperm, hresults⟩ := h.exists_results
  refine ⟨rs', hperm, by simpa using congrArg List.length hresults, ?_⟩
  have hread : (fun r : FileResult String => (r.map Value.text).extraction?) =
      fun r => r.extraction?.map (·.map Value.text) := by
    funext r
    cases r <;> rfl
  calc ix.extractions
    _ = (ix.entries.map (·.result)).filterMap (·.extraction?) := by rw [List.filterMap_map]; rfl
    _ = rs'.filterMap fun r => r.extraction?.map (·.map Value.text) := by
      rw [hresults, List.filterMap_map, ← hread]
      rfl
    _ = (rs'.filterMap (·.extraction?)).map (·.map .text) := by rw [List.map_filterMap]

end Describes

section Counts

theorem length_flatMap_congr {β γ δ : Type} {f : β → List γ} {g : β → List δ} {xs : List β}
    (h : ∀ x ∈ xs, (f x).length = (g x).length) :
    (xs.flatMap f).length = (xs.flatMap g).length := by
  rw [List.length_flatMap, List.length_flatMap, List.map_congr_left h]

theorem isInterface_map (t : TypeDeclaration String) :
    (t.map Value.text).isInterface = t.isInterface := rfl

theorem sum_kinds (ts : List (TypeDeclaration String)) :
    (ts.countP fun t => !t.isInterface) + ts.countP (·.isInterface) = ts.length := by
  rw [List.length_eq_countP_add_countP (fun t => !t.isInterface)]
  congr 1
  exact List.countP_congr fun t _ => by simp

variable (es : List (FileExtraction String))

theorem types_map : (es.map (·.map Value.text)).flatMap (·.types) =
    (es.flatMap (·.types)).map (·.map Value.text) := by
  rw [List.flatMap_map, List.map_flatMap]
  rfl

def stagesWith (tag : StageTag) : ℕ := (es.flatMap (·.stagesFor tag)).length

theorem length_stagesFor_map (tag : StageTag) :
    ((es.map (·.map Value.text)).flatMap (·.stagesFor tag)).length = stagesWith es tag := by
  rw [stagesWith, List.flatMap_map]
  exact length_flatMap_congr fun e _ => by rw [stagesFor_map, List.length_map]

theorem sum_stagesFor (e : FileExtraction String) : (e.stagesFor .source).length +
    (e.stagesFor .transformation).length + (e.stagesFor .sink).length = e.stages.length := by
  simp only [FileExtraction.stagesFor]
  induction e.stages with
  | nil => rfl
  | cons s stages ih =>
    cases h : s.tag <;> simp only [List.filter_cons, h, reduceCtorEq, decide_true, decide_false,
      if_true, Bool.false_eq_true, if_false, List.length_cons] <;> omega

theorem sum_stagesWith : stagesWith es .source + stagesWith es .transformation +
    stagesWith es .sink = (es.flatMap (·.stages)).length := by
  simp only [stagesWith]
  induction es with
  | nil => rfl
  | cons e es ih =>
    have he := sum_stagesFor e
    simp only [List.flatMap_cons, List.length_append]
    omega

end Counts

section Latest

variable (rs : List (FileResult String)) (ps : List String)

/-- What the last results of the paths consist of, path by path. -/
theorem flatMap_latest? {γ : Type} (part : FileExtraction String → List γ) :
    (ps.flatMap fun p => (((latest? rs p).bind (·.extraction?)).map part).getD []) =
      ((ps.filterMap (latest? rs)).filterMap (·.extraction?)).flatMap part := by
  rw [List.filterMap_filterMap]
  induction ps with
  | nil => rfl
  | cons p ps ih =>
    rw [List.flatMap_cons, ih, List.filterMap_cons]
    cases (latest? rs p).bind (·.extraction?) <;> rfl

theorem length_flatMap_foundAt : (ps.flatMap (foundAt rs)).length =
    (((ps.filterMap (latest? rs)).filterMap (·.extraction?)).flatMap (·.types)).length := by
  rw [← flatMap_latest?]
  exact length_flatMap_congr fun p _ => by rw [foundAt, List.length_map, List.length_zipIdx]; rfl

theorem sum_counted (counts : List (String × ℕ)) :
    ((counts.filter (·.2 ≠ 0)).map (·.2)).sum = (counts.map (·.2)).sum := by
  induction counts with
  | nil => rfl
  | cons c counts ih =>
    rw [List.map_cons, List.sum_cons, ← ih]
    by_cases hc : c.2 = 0
    · rw [List.filter_cons_of_neg (by simpa using hc), hc, Nat.zero_add]
    · rw [List.filter_cons_of_pos (by simpa using hc), List.map_cons, List.sum_cons]

theorem sum_length_stagesAt : (ps.map fun p => (stagesAt rs p).length).sum =
    (((ps.filterMap (latest? rs)).filterMap (·.extraction?)).flatMap (·.stages)).length := by
  rw [← flatMap_latest?, List.length_flatMap]
  rfl

end Latest

/-- What an index says of itself, in terms of the counts of a run. -/
def counted (s : ExtractionStats String) (classes interfaces fields : ℕ) (stages : StageTag → ℕ) :
    Value :=
  .ofFields [("files", .int (s.processed + s.failed : ℕ)), ("failedFiles", .int s.failed),
    ("classes", .int classes), ("interfaces", .int interfaces), ("methods", .int s.methods),
    ("fields", .int fields), ("pipelineStages", .ofFields [("sources", .int (stages .source)),
      ("transformations", .int (stages .transformation)), ("sinks", .int (stages .sink))])]

/-- An index counts what a run has counted. -/
structure AgreesWith (ix : Index) (s : ExtractionStats String) : Prop where
  statistics : ∃ (classes interfaces fields : ℕ) (stages : StageTag → ℕ),
    ix.statistics = counted s classes interfaces fields stages ∧
    classes + interfaces = s.types ∧
    stages .source + stages .transformation + stages .sink = s.stages
  types : ∃ entries, ix.allTypes = .ok entries ∧ entries.length = s.types
  pipelines : ∃ counts, ix.pipelines = .ok counts ∧ (counts.map (·.2)).sum = s.stages

section Describes

variable {ix : Index} {rs : List (FileResult String)} (h : ix.Describes rs)

include h

theorem Describes.stages (path : String) :
    ix.stages (.text path) none = .ok ((stagesAt rs path).map (·.map .text)) := by
  rw [Index.stages, h.extraction?, stagesAt]
  cases (latest? rs path).bind (·.extraction?) <;> rfl

theorem Describes.pipelines {ps : List String} (hps : ix.paths = .ok (ps.map .text)) :
    ix.pipelines = .ok (((ps.map fun p => (p, (stagesAt rs p).length)).filter (·.2 ≠ 0)).map
      fun c => (.text c.1, c.2)) := by
  have hcounts : (ps.map Value.text).mapM (fun p => return (p, (← ix.stages p none).length)) =
      (.ok ((ps.map fun p => (p, (stagesAt rs p).length)).map fun c => (Value.text c.1, c.2)) :
        Result _) := by
    rw [List.mapM_map, List.map_map]
    refine mapM_comp_ok fun p _ => ?_
    rw [h.stages, ok_bind, List.length_map]
    rfl
  rw [Index.pipelines, hps, ok_bind, hcounts, ok_bind, List.filter_map]
  rfl

theorem Describes.statistics : ∃ (classes interfaces fields : ℕ) (stages : StageTag → ℕ),
    ix.statistics = counted (ExtractionStats.ofResults (lastOfEach rs)) classes interfaces fields
      stages ∧
    classes + interfaces = (ExtractionStats.ofResults (lastOfEach rs)).types ∧
    stages .source + stages .transformation + stages .sink =
      (ExtractionStats.ofResults (lastOfEach rs)).stages := by
  obtain ⟨rs', hperm, hlength, hextractions⟩ := h.exists_extractions
  obtain ⟨hprocessed, hfailed, htypes, hmethods, hstages⟩ := ExtractionStats.IsCount.of_perm hperm
  generalize rs'.filterMap (·.extraction?) = es at *
  refine ⟨(es.flatMap (·.types)).countP fun t => !t.isInterface,
    (es.flatMap (·.types)).countP (·.isInterface),
    ((es.flatMap (·.types)).flatMap (·.fields)).length, stagesWith es, ?_, ?_, ?_⟩
  · have hcount : ix.entries.length - ix.extractions.length =
        (ExtractionStats.ofResults (lastOfEach rs)).failed := by
      rw [hlength, hextractions, List.length_map]
      omega
    have hmethods' : (((es.flatMap (·.types)).map (·.map Value.text)).flatMap (·.methods)).length =
        (ExtractionStats.ofResults (lastOfEach rs)).methods := by
      rw [hmethods, List.flatMap_map]
      exact length_flatMap_congr fun t _ => List.length_map ..
    have hfields : (((es.flatMap (·.types)).map (·.map Value.text)).flatMap (·.fields)).length =
        ((es.flatMap (·.types)).flatMap (·.fields)).length := by
      rw [List.flatMap_map]
      exact length_flatMap_congr fun t _ => List.length_map ..
    rw [Index.statistics, hcount, hlength, ← hfailed]
    simp only [hextractions, types_map, length_stagesFor_map, hmethods', hfields, List.countP_map,
      Function.comp_def, isInterface_map]
    rfl
  · rw [htypes, sum_kinds]
  · rw [hstages, sum_stagesWith]

theorem Describes.agreesWith :
    ix.AgreesWith (ExtractionStats.ofResults (lastOfEach rs)) := by
  obtain ⟨ps, hps, hsorted, hmem⟩ := h.exists_paths
  have hcount := ExtractionStats.IsCount.of_perm
    (filterMap_latest?_perm (hsorted.imp ne_of_lt) hmem)
  refine ⟨h.statistics, ⟨_, h.allTypes hps, ?_⟩, ⟨_, h.pipelines hps, ?_⟩⟩
  · rw [List.length_map, length_flatMap_foundAt, hcount.types]
  · have hcounts (counts : List (String × ℕ)) :
        (counts.map fun c => (Value.text c.1, c.2)).map (·.2) = counts.map (·.2) := by
      rw [List.map_map]
      rfl
    rw [hcounts, sum_counted, List.map_map, hcount.stages, ← sum_length_stagesAt]
    rfl

end Describes

/-- Results of texts are indexed under their paths, which are listed in order and each once, and the
index counts what a run counts that has recorded, of the results with one path, the last one. -/
theorem counts_last_results (rs : List (FileResult String)) :
    ∃ ix, ofResults (rs.map (·.map .text)) = .ok ix ∧
      ix.AgreesWith (ExtractionStats.ofResults (lastOfEach rs)) ∧
      ∃ ps : List String, ix.paths = .ok (ps.map .text) ∧ ps.Pairwise (· < ·) ∧
        ∀ p, p ∈ ps ↔ ∃ r ∈ rs, r.path = p := by
  obtain ⟨ix, hix, hdescribes⟩ := exists_ofResults rs
  exact ⟨ix, hix, hdescribes.agreesWith, hdescribes.exists_paths⟩

end Index

end CodeAtlas
