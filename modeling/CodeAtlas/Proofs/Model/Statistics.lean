import Mathlib.Data.List.Induction
import Mathlib.Data.String.Basic
import CodeAtlas.Model.Stats
import CodeAtlas.Proofs.Order.StableSort

/-! # Statistics of a run

The counts over a list of results are those of the extractions among them. They do not depend on the
order of the results, nor does what is reported of them, if results with one path are the same.
-/

namespace CodeAtlas

namespace ExtractionStats

section Agree

variable {α : Type} {s t u : ExtractionStats α}

structure Agree (s t : ExtractionStats α) : Prop where
  processed : s.processed = t.processed
  types : s.types = t.types
  methods : s.methods = t.methods
  stages : s.stages = t.stages
  parseErrors : s.parseErrors = t.parseErrors
  failures : s.failures.Perm t.failures

theorem Agree.refl (s : ExtractionStats α) : s.Agree s := ⟨rfl, rfl, rfl, rfl, rfl, .refl _⟩

theorem Agree.trans (h : s.Agree t) (h' : t.Agree u) : s.Agree u :=
  ⟨h.processed.trans h'.processed, h.types.trans h'.types, h.methods.trans h'.methods,
    h.stages.trans h'.stages, h.parseErrors.trans h'.parseErrors, h.failures.trans h'.failures⟩

theorem Agree.record (h : s.Agree t) (r : FileResult α) : (s.record r).Agree (t.record r) := by
  obtain ⟨h₁, h₂, h₃, h₄, h₅, h₆⟩ := h
  cases r with
  | extracted e =>
    exact ⟨congrArg (· + 1) h₁, congrArg (· + _) h₂, congrArg (· + _) h₃, congrArg (· + _) h₄,
      congrArg (· + _) h₅, h₆⟩
  | failed path reason => exact ⟨h₁, h₂, h₃, h₄, h₅, h₆.append_right _⟩

theorem Agree.foldl_record (h : s.Agree t) (rs : List (FileResult α)) :
    (rs.foldl ExtractionStats.record s).Agree (rs.foldl ExtractionStats.record t) := by
  induction rs generalizing s t with
  | nil => exact h
  | cons r rs ih => exact ih (h.record r)

theorem record_comm (s : ExtractionStats α) (r r' : FileResult α) :
    ((s.record r).record r').Agree ((s.record r').record r) := by
  have hswap : ∀ f f' : α × String,
      (s.failures ++ [f] ++ [f']).Perm (s.failures ++ [f'] ++ [f]) := fun f f' => by
    simpa using (List.Perm.swap f' f []).append_left s.failures
  cases r <;> cases r'
  · exact ⟨rfl, Nat.add_right_comm .., Nat.add_right_comm .., Nat.add_right_comm ..,
      Nat.add_right_comm .., .refl _⟩
  · exact .refl _
  · exact .refl _
  · exact ⟨rfl, rfl, rfl, rfl, rfl, hswap _ _⟩

/-- The order of results does not matter but to the order of the failures. -/
theorem ofResults_agree {rs rs' : List (FileResult α)} (h : rs.Perm rs') :
    (ofResults rs).Agree (ofResults rs') := by
  suffices ∀ s, (rs.foldl ExtractionStats.record s).Agree (rs'.foldl ExtractionStats.record s) from
    this empty
  induction h with
  | nil => exact Agree.refl
  | cons r _ ih => exact fun s => ih (s.record r)
  | swap r r' rs => exact fun s => (record_comm s r' r).foldl_record rs
  | trans _ _ ih ih' => exact fun s => (ih s).trans (ih' s)

end Agree

section Counts

variable {α : Type} {rs : List (FileResult α)}

/-- The counts of a run in terms of the extractions among its results. -/
structure IsCount (s : ExtractionStats α) (total : ℕ) (es : List (FileExtraction α)) : Prop where
  processed : s.processed = es.length
  failed : s.processed + s.failed = total
  types : s.types = (es.flatMap (·.types)).length
  methods : s.methods = ((es.flatMap (·.types)).flatMap (·.methods)).length
  stages : s.stages = (es.flatMap (·.stages)).length

theorem isCount_ofResults (rs : List (FileResult α)) :
    (ofResults rs).IsCount rs.length (rs.filterMap (·.extraction?)) := by
  induction rs using List.reverseRecOn with
  | nil => exact ⟨rfl, rfl, rfl, rfl, rfl⟩
  | append_singleton rs r ih =>
    obtain ⟨h₁, h₂, h₃, h₄, h₅⟩ := ih
    have hsnoc : ofResults (rs ++ [r]) = (ofResults rs).record r := List.foldl_concat ..
    rw [failed] at h₂
    rw [hsnoc]
    cases r with
    | failed path reason =>
      have hnone : [FileResult.failed path reason].filterMap (·.extraction?) = [] := rfl
      rw [List.filterMap_append, hnone, List.append_nil]
      refine ⟨h₁, ?_, h₃, h₄, h₅⟩
      simp only [record, failed, List.length_append, List.length_singleton]
      omega
    | extracted e =>
      have hsome : [FileResult.extracted e].filterMap (·.extraction?) = [e] := rfl
      rw [List.filterMap_append, hsome]
      refine ⟨?_, ?_, ?_, ?_, ?_⟩
      · simp [record, h₁]
      · simp only [record, failed, List.length_append, List.length_singleton]
        omega
      · simp [record, h₃]
      · simp [record, h₄]
      · simp [record, h₅]

theorem IsCount.of_perm {rs' : List (FileResult α)} (h : rs'.Perm rs) :
    (ofResults rs).IsCount rs'.length (rs'.filterMap (·.extraction?)) := by
  obtain ⟨hprocessed, htypes, hmethods, hstages, -, hfailures⟩ := ofResults_agree h
  obtain ⟨h₁, h₂, h₃, h₄, h₅⟩ := isCount_ofResults rs'
  have hfailed : (ofResults rs').failed = (ofResults rs).failed := hfailures.length_eq
  rw [hprocessed] at h₁ h₂
  rw [hfailed] at h₂
  exact ⟨h₁, h₂, htypes ▸ h₃, hmethods ▸ h₄, hstages ▸ h₅⟩

end Counts

end ExtractionStats

end CodeAtlas
