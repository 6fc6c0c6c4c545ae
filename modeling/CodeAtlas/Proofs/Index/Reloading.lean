import CodeAtlas.Index.Load
import CodeAtlas.Proofs.Exchange.Line
import CodeAtlas.Proofs.Index.Latest
import CodeAtlas.Proofs.Text.Encoding
import CodeAtlas.Run.Extraction

/-! # Reloading an index

A file with the line of one result of texts on each line, and any number of blank lines among
them, is loaded as the index of the results.
-/

namespace CodeAtlas.Index

open FileResult (IsRegular)
open Run.Progress (line)

section Lines

variable {α : Type} [Cell α] (path : String)

theorem readLine_of_blank (number : ℕ) {l : String} (h : Text.allBlank l = true) :
    readLine path number l = .ok none := by
  rw [readLine, Text.trim_of_allBlank h]
  rfl

theorem readLine_line (number : ℕ) {r : FileResult α} (h : r.IsPrintable) :
    readLine path number r.line = .ok (some r.toValue) := by
  have hne : r.line ≠ "" := by
    intro hempty
    have hblank := r.allBlank_line
    rw [hempty] at hblank
    revert hblank
    decide
  rw [readLine, r.trim_line, if_neg hne, FileResult.line, h.read_print]

theorem exists_mapM_readLine {ls : List String} {rs : List (FileResult α)}
    (hrs : ∀ r ∈ rs, r.IsPrintable)
    (hls : ls.filter (fun l => !Text.allBlank l) = rs.map FileResult.line) (k : ℕ) :
    ∃ vs, (ls.zipIdx k).mapM (fun (l, i) => readLine path (i + 1) l) = .ok vs ∧
      vs.reduceOption = rs.map FileResult.toValue := by
  induction ls generalizing rs k with
  | nil =>
    obtain rfl : rs = [] := List.map_eq_nil_iff.mp hls.symm
    exact ⟨[], rfl, rfl⟩
  | cons l ls ih =>
    rw [List.zipIdx_cons, List.mapM_cons]
    cases hl : Text.allBlank l with
    | true =>
      rw [List.filter_cons_of_neg (by simp [hl])] at hls
      obtain ⟨vs, hvs, hvalues⟩ := ih hrs hls (k + 1)
      refine ⟨none :: vs, ?_, hvalues⟩
      dsimp only
      rw [readLine_of_blank path _ hl, ok_bind, hvs]
      rfl
    | false =>
      rw [List.filter_cons_of_pos (by simp [hl])] at hls
      obtain ⟨r, rs, rfl, rfl, htail⟩ := List.map_eq_cons_iff.mp hls.symm
      obtain ⟨vs, hvs, hvalues⟩ :=
        ih (fun r' hr' => hrs r' (List.mem_cons_of_mem _ hr')) htail.symm (k + 1)
      refine ⟨some r.toValue :: vs, ?_, congrArg (r.toValue :: ·) hvalues⟩
      dsimp only
      rw [readLine_line path _ (hrs r List.mem_cons_self), ok_bind, hvs]
      rfl

theorem filter_lines (rs : List (FileResult α)) :
    (rs.map FileResult.line).filter (fun l => !Text.allBlank l) = rs.map FileResult.line := by
  refine List.filter_eq_self.mpr fun l hl => ?_
  obtain ⟨r, -, rfl⟩ := List.mem_map.mp hl
  rw [r.allBlank_line]
  rfl

theorem readLines_intercalate {ls : List String} {rs : List (FileResult α)}
    (hrs : ∀ r ∈ rs, r.IsPrintable)
    (hls : ls.filter (fun l => !Text.allBlank l) = rs.map FileResult.line) :
    readLines path ("\n".intercalate ls) = .ok (rs.map FileResult.toValue) := by
  have hunbroken : ∀ l ∈ ls, Text.allBlank l = false → ∀ c ∈ l.toList, ¬ Text.IsBreak c := by
    intro l hl hblank c hc
    have hmem : l ∈ rs.map FileResult.line := hls ▸ List.mem_filter.mpr ⟨hl, by simp [hblank]⟩
    obtain ⟨r, hr, rfl⟩ := List.mem_map.mp hmem
    exact (hrs r hr).not_isBreak 0 c hc
  have hlines := (Text.filter_lines_intercalate hunbroken).trans hls
  obtain ⟨vs, hvs, hvalues⟩ := exists_mapM_readLine path hrs hlines 0
  rw [readLines, hvs, ok_bind, hvalues]
  rfl

end Lines

theorem filter_map_line (rs : List (FileResult String)) :
    (rs.map line).filter (fun l => !Text.allBlank l) = rs.map line := filter_lines rs

theorem path_withoutFaults (r : FileResult String) : r.withoutFaults.path = r.path := by
  cases r <;> rfl

theorem latest?_withoutFaults (rs : List (FileResult String)) (p : String) :
    latest? (rs.map (·.withoutFaults)) p = (latest? rs p).map (·.withoutFaults) := by
  rw [latest?, ← List.map_reverse, List.find?_map, latest?]
  simp only [Function.comp_def, path_withoutFaults]

theorem load_intercalate (path : String) {ls : List String} {rs : List (FileResult String)}
    (hrs : ∀ r ∈ rs, r.IsRegular)
    (hls : ls.filter (fun l => !Text.allBlank l) = rs.map line) :
    load path ("\n".intercalate ls).toUTF8 =
      ofResults ((rs.map (·.withoutFaults)).map (·.map .text)) := by
  have hvalues : (rs.map FileResult.toValue).mapM FileResult.ofValue =
      .ok (rs.map fun r => r.withoutFaults.map .text) := by
    rw [List.mapM_map]
    exact mapM_comp_ok fun r hr => (hrs r hr).ofValue_toValue
  rw [load, readContent, Text.Utf8.decode?_toUTF8]
  simp only [readLines_intercalate path (fun r hr => (hrs r hr).isPrintable) hls, ok_bind, hvalues,
    List.map_map]
  rfl

theorem join_eq_intercalate (ls : List String) :
    String.join (ls.map (· ++ "\n")) = "\n".intercalate (ls ++ [""]) := by
  induction ls with
  | nil => rfl
  | cons l ls ih =>
    obtain ⟨next, tail, htail⟩ : ∃ next tail, ls ++ [""] = next :: tail :=
      List.exists_cons_of_ne_nil (by simp)
    rw [List.cons_append, htail, String.intercalate_cons_cons, ← htail, ← ih,
      ← String.toList_inj]
    simp [String.toList_join]

theorem text_eq_intercalate (p : Run.Progress) : p.text = "\n".intercalate (p.lines ++ [""]) :=
  join_eq_intercalate p.lines

/-- What is loaded from the lines of some results, with blank lines anywhere among them, is the
index of the results without their counts of faulty nodes. Its paths are those of the results, and
the last result of a path stands under it. The output of a run that took the results is such a
file. -/
theorem load_lines (path : String) {ls : List String} {rs : List (FileResult String)}
    (hrs : ∀ r ∈ rs, r.IsRegular)
    (hls : ls.filter (fun l => !Text.allBlank l) = rs.map line) :
    ∃ ix, load path ("\n".intercalate ls).toUTF8 = .ok ix ∧
      ofResults ((rs.map (·.withoutFaults)).map (·.map .text)) = .ok ix ∧
      (∃ ps : List String, ix.paths = .ok (ps.map .text) ∧ ps.Pairwise (· < ·) ∧
        ∀ p, p ∈ ps ↔ ∃ r ∈ rs, r.path = p) ∧
      (∀ p, ix.result? (.text p) =
        .ok ((latest? rs p).map fun r => r.withoutFaults.map .text)) ∧
      ∀ run : Run.Progress, run.lines = rs.map line → load path run.text.toUTF8 = .ok ix := by
  obtain ⟨ix, hix, hdescribes⟩ := exists_ofResults (rs.map (·.withoutFaults))
  refine ⟨ix, ?_, hix, ?_, fun p => ?_, fun run hrun => ?_⟩
  · rw [load_intercalate path hrs hls, hix]
  · obtain ⟨ps, hps, hsorted, hmem⟩ := hdescribes.exists_paths
    refine ⟨ps, hps, hsorted, fun p => ?_⟩
    simp [hmem, path_withoutFaults]
  · rw [hdescribes.result?, latest?_withoutFaults, Option.map_map]
    rfl
  · have hlines : (run.lines ++ [""]).filter (fun l => !Text.allBlank l) = rs.map line := by
      rw [List.filter_append, hrun, filter_map_line]
      exact List.append_nil _
    rw [text_eq_intercalate, load_intercalate path hrs hlines, hix]

/-- Two results of one path and one of another, with texts that hold line ends of various kinds. -/
def rerun : List (FileResult String) := [
  .failed "/srv/Report.java" "unexpected \u2028 in line 3\r\n",
  .extracted ⟨⟨"/srv/Job.java", some "job", []⟩, [], [], 0⟩,
  .extracted ⟨⟨"/srv/Report.java", none, ["java.util.List"]⟩,
    [⟨"Report", .classType, [], [], [], [⟨"title", "String", true, false, some "\"\u0085\""⟩]⟩],
    [⟨.source, "read", [], some "rows", 1, 0⟩, ⟨.sink, "save", ["rows\n"], none, 3, 1⟩], 4⟩]

theorem isRegular_rerun : ∀ r ∈ rerun, r.IsRegular := by
  intro r hr
  simp only [rerun, List.mem_cons, List.not_mem_nil, or_false] at hr
  rcases hr with rfl | rfl | rfl
  · exact ⟨nofun, nofun, by decide⟩
  · exact ⟨by simp [FileResult.extraction?], by simp [FileResult.extraction?], by decide⟩
  · exact ⟨by simp [FileResult.extraction?], by simp [FileResult.extraction?], by decide +kernel⟩

theorem load_lines_rerun : ∃ ix,
    load "/srv/out.jsonl"
      ("\n".intercalate (" \u2029\r" :: (rerun.map line ++ ["", "\t"]))).toUTF8 = .ok ix ∧
    ix.result? (.text "/srv/Report.java") =
      .ok (rerun.getLast?.map fun r => r.withoutFaults.map .text) := by
  have hls : (" \u2029\r" :: (rerun.map line ++ ["", "\t"])).filter (fun l => !Text.allBlank l) =
      rerun.map line := by
    have hfirst : Text.allBlank " \u2029\r" = true := by decide
    have hlast : ["", "\t"].filter (fun l => !Text.allBlank l) = [] := by decide
    rw [List.filter_cons_of_neg (by simp [hfirst]), List.filter_append, filter_map_line, hlast,
      List.append_nil]
  obtain ⟨ix, hload, -, -, hresult, -⟩ := load_lines "/srv/out.jsonl" isRegular_rerun hls
  exact ⟨ix, hload, hresult _⟩

end CodeAtlas.Index
