import Mathlib.Data.List.Induction
import CodeAtlas.Index.Basic
import CodeAtlas.Proofs.Exchange.Entries
import CodeAtlas.Proofs.Model.Statistics

/-! # The index of results of texts

Results of texts are always indexed. What stands under a path is the last result of that path, and
the paths are listed in order.
-/

namespace CodeAtlas

theorem Value.sortOn_texts (ps : List String) : Value.sortOn id (ps.map .text) =
    .ok ((ps.mergeSort fun a b => decide (a ≤ b)).map .text) := by
  have hkeyed : ((ps.map Value.text).mapM fun x => (id x).text?.map (·, x)) =
      some (ps.map fun p => (p, Value.text p)) := by
    rw [List.mapM_map]
    exact List.mapM_pure (m := Option)
  have hsort : (ps.mergeSort fun a b => decide (a ≤ b)).map (fun p => (p, Value.text p)) =
      (ps.map fun p => (p, Value.text p)).mergeSort fun a b => a.1 ≤ b.1 :=
    List.map_mergeSort fun _ _ _ _ => rfl
  unfold Value.sortOn
  split
  · next h =>
    match ps, h with
    | [], _ => simp
    | [p], _ => simp
  · rw [hkeyed]
    refine (congrArg (fun keyed => Except.ok (keyed.map (·.2))) hsort.symm).trans ?_
    rw [List.map_map]
    rfl

namespace Index

theorem map_path_place (key : Scalar) (r : FileResult Value) (entries : List Indexed) :
    (place key r entries).map (·.path) =
      if entries.any (·.path.same key) then entries.map (·.path)
      else entries.map (·.path) ++ [key] := by
  induction entries with
  | nil => rfl
  | cons e entries ih =>
    rw [place, List.any_cons]
    cases h : e.path.same key with
    | true => simp
    | false =>
      simp only [Bool.false_or, List.map_cons, Bool.false_eq_true, if_false, ih]
      split <;> rfl

theorem find?_place (key key' : Scalar) (r : FileResult Value) (entries : List Indexed) :
    ((place key r entries).find? (·.path.same key')).map (·.result) =
      if key.same key' then some r
      else (entries.find? (·.path.same key')).map (·.result) := by
  induction entries with
  | nil =>
    rw [place, List.find?_cons]
    cases key.same key' <;> rfl
  | cons e entries ih =>
    rw [place]
    cases h : e.path.same key with
    | true =>
      have hsame : e.path.same key' = key.same key' := by
        have heq : e.path.canonical = key.canonical := beq_iff_eq.mp h
        rw [Scalar.same, Scalar.same, heq]
      rw [if_pos rfl, List.find?_cons, List.find?_cons, hsame]
      cases key.same key' <;> rfl
    | false =>
      rw [if_neg Bool.false_ne_true, List.find?_cons, List.find?_cons]
      cases h' : e.path.same key' with
      | false => exact ih
      | true =>
        have hkey : key.same key' = false := by
          have heq : e.path.canonical = key'.canonical := beq_iff_eq.mp h'
          rw [Scalar.same, heq] at h
          rw [Scalar.same, Bool.beq_comm]
          exact h
        rw [hkey]
        rfl

def latest? (rs : List (FileResult String)) (path : String) : Option (FileResult String) :=
  rs.reverse.find? (·.path = path)

theorem latest?_append (rs : List (FileResult String)) (r : FileResult String) (path : String) :
    latest? (rs ++ [r]) path = if r.path = path then some r else latest? rs path := by
  rw [latest?, List.reverse_append, List.reverse_singleton, List.singleton_append,
    List.find?_cons, ← latest?]
  by_cases h : r.path = path <;> simp [h]

/-- The paths of the entries are those of the results, each once, and the last result of a path
stands under it. -/
structure Describes (ix : Index) (rs : List (FileResult String)) : Prop where
  paths : ∃ ps : List String, ix.entries.map (·.path) = ps.map .text ∧ ps.Nodup ∧
    ∀ p, p ∈ ps ↔ ∃ r ∈ rs, r.path = p
  result : ∀ p, (ix.entries.find? (·.path.same (.text p))).map (·.result) =
    (latest? rs p).map (·.map .text)

theorem path_map (r : FileResult String) : (r.map Value.text).path = .text r.path := by
  cases r <;> rfl

theorem Describes.add {ix : Index} {rs : List (FileResult String)} (h : ix.Describes rs)
    (r : FileResult String) : ∃ ix' : Index, ix.add (r.map .text) = .ok ix' ∧
      ix'.Describes (rs ++ [r]) := by
  obtain ⟨ps, hps, hnodup, hmem⟩ := h.paths
  have hasKey : (r.map Value.text).path.asKey = .ok (.text r.path) := by rw [path_map]; rfl
  refine ⟨_, by rw [Index.add, hasKey]; rfl, ⟨?_, fun p => ?_⟩⟩
  · have hany : ix.entries.any (·.path.same (.text r.path)) = decide (r.path ∈ ps) := by
      have hmap : ix.entries.any (·.path.same (.text r.path)) =
          (ix.entries.map (·.path)).any (·.same (.text r.path)) := by
        rw [List.any_map]
        rfl
      rw [hmap, hps, List.any_map, Bool.eq_iff_iff]
      simp [same_text]
    rw [map_path_place, hany, hps]
    -- A path that is known keeps its place, a new one comes last.
    by_cases hr : r.path ∈ ps
    · refine ⟨ps, by simp [hr], hnodup, fun p => ?_⟩
      rw [hmem]
      constructor
      · rintro ⟨r', hr', rfl⟩
        exact ⟨r', List.mem_append_left _ hr', rfl⟩
      · rintro ⟨r', hr', rfl⟩
        rcases List.mem_append.mp hr' with hr' | hr'
        · exact ⟨r', hr', rfl⟩
        · obtain rfl := List.mem_singleton.mp hr'
          exact (hmem _).mp hr
    · refine ⟨ps ++ [r.path], by simp [hr], ?_, fun p => ?_⟩
      · rw [List.nodup_append]
        refine ⟨hnodup, by simp, fun p hp q hq => ?_⟩
        obtain rfl := List.mem_singleton.mp hq
        rintro rfl
        exact hr hp
      · rw [List.mem_append, hmem, List.mem_singleton]
        constructor
        · rintro (⟨r', hr', rfl⟩ | rfl)
          · exact ⟨r', List.mem_append_left _ hr', rfl⟩
          · exact ⟨r, by simp, rfl⟩
        · rintro ⟨r', hr', rfl⟩
          rcases List.mem_append.mp hr' with hr' | hr'
          · exact Or.inl ⟨r', hr', rfl⟩
          · obtain rfl := List.mem_singleton.mp hr'
            exact Or.inr rfl
  · rw [find?_place, latest?_append, h.result, same_text]
    by_cases hp : r.path = p <;> simp [hp]

theorem exists_ofResults (rs : List (FileResult String)) :
    ∃ ix, ofResults (rs.map (·.map .text)) = .ok ix ∧ ix.Describes rs := by
  induction rs using List.reverseRecOn with
  | nil => exact ⟨⟨[]⟩, rfl, ⟨[], rfl, .nil, by simp⟩, fun p => rfl⟩
  | append_singleton rs r ih =>
    obtain ⟨ix, hix, hdescribes⟩ := ih
    obtain ⟨ix', hadd, hdescribes'⟩ := hdescribes.add r
    refine ⟨ix', ?_, hdescribes'⟩
    rw [ofResults] at hix ⊢
    rw [List.map_append, List.foldlM_append, hix, ok_bind]
    rw [List.map_singleton, List.foldlM_cons, hadd, ok_bind]
    rfl

section Describes

variable {ix : Index} {rs : List (FileResult String)} (h : ix.Describes rs)

include h

theorem Describes.result? (p : String) :
    ix.result? (.text p) = .ok ((latest? rs p).map (·.map .text)) := by
  rw [← h.result]
  rfl

theorem Describes.exists_paths : ∃ ps : List String, ix.paths = .ok (ps.map .text) ∧
    ps.Pairwise (· < ·) ∧ ∀ p, p ∈ ps ↔ ∃ r ∈ rs, r.path = p := by
  obtain ⟨ps, hps, hnodup, hmem⟩ := h.paths
  refine ⟨ps.mergeSort fun a b => decide (a ≤ b), ?_, sorted_lt_mergeSort hnodup, fun p => ?_⟩
  · have hscalars : (ix.entries.map fun e => Value.scalar e.path) = ps.map Value.text := by
      have hmap := congrArg (List.map Value.scalar) hps
      rw [List.map_map, List.map_map] at hmap
      exact hmap
    rw [Index.paths, hscalars, Value.sortOn_texts]
  · rw [List.mem_mergeSort, hmem]

end Describes

end Index

end CodeAtlas
