import CodeAtlas.Proofs.Exchange.Rereading
import CodeAtlas.Proofs.Index.Reloading

/-! # Saving what was loaded

A file whose results are loaded and saved holds the same results again. Saved once, it stays as it
is, octet for octet, however often it is loaded and saved.
-/

namespace CodeAtlas.Index

open Json (IsPlain)

def results (path : String) (content : ByteArray) : Result (List (FileResult Value)) := do
  (← readContent path content.toList).mapM FileResult.ofValue

def savedLine (r : FileResult Value) : Result String :=
  if r.toValue.isWritable then .ok r.line
  else .error (.unusable s!"Exceeds the limit ({Text.digitLimit} digits) for integers in text")

def save (rs : List (FileResult Value)) : Result ByteArray :=
  return (String.join ((← rs.mapM savedLine).map (· ++ "\n"))).toUTF8

/-- What is in a file after it was loaded and saved so many times. -/
def resave (path : String) : ℕ → ByteArray → Result ByteArray
  | 0, content => .ok content
  | n + 1, content => do resave path n (← save (← results path content))

theorem load_eq_results (path : String) (content : ByteArray) :
    load path content = results path content >>= ofResults := by
  rw [load, results, bind_assoc]

section Loading

variable {path : String} {vs : List Value}

theorem isPlain_of_readLine {number : ℕ} {l : String} {v : Value}
    (h : readLine path number l = .ok (some v)) : IsPlain (some Text.digitLimit) v := by
  unfold readLine at h
  dsimp only at h
  split at h
  · cases h
  · split at h
    · next hread =>
      cases h
      exact Json.isPlain_of_read hread
    all_goals cases h

theorem isPlain_of_readLines {text : String} (h : readLines path text = .ok vs) :
    ∀ v ∈ vs, IsPlain (some Text.digitLimit) v := by
  obtain ⟨found, hfound, heq⟩ := bind_eq_ok_iff.mp h
  cases heq
  intro v hv
  obtain ⟨⟨l, i⟩, -, hread⟩ := exists_of_mem_mapM hfound (List.reduceOption_mem_iff.mp hv)
  exact isPlain_of_readLine hread

theorem isPlain_of_readContent {content : List UInt8} (h : readContent path content = .ok vs) :
    ∀ v ∈ vs, IsPlain (some Text.digitLimit) v := by
  unfold readContent at h
  split at h
  · exact isPlain_of_readLines h
  · dsimp only at h
    split at h
    · obtain ⟨_, -, heq⟩ := bind_eq_ok_iff.mp h
      cases heq
    · cases h

/-- What is read from a file can be printed if its numerals can be written. -/
theorem isPrintable_of_results {content : ByteArray} {rs : List (FileResult Value)}
    (h : results path content = .ok rs) {r : FileResult Value} (hr : r ∈ rs)
    (hwritable : r.toValue.isWritable = true) : r.IsPrintable := by
  obtain ⟨vs, hvs, hrs⟩ := bind_eq_ok_iff.mp h
  obtain ⟨v, hv, hread⟩ := exists_of_mem_mapM hrs hr
  have hplain := (isPlain_of_readContent hvs v hv).unlimited
  have hcontents := FileResult.arePlain_of_ofValue hplain hread
  exact (FileResult.isPlain_toValue_of hcontents).of_isWritable hwritable

end Loading

section Saving

variable {path : String} {content content' : ByteArray} {rs : List (FileResult Value)}

theorem mapM_savedLine {ls : List String} (h : rs.mapM savedLine = .ok ls) :
    ls = rs.map FileResult.line ∧ ∀ r ∈ rs, r.toValue.isWritable = true := by
  induction mapM_eq_ok_iff.mp h with
  | nil => exact ⟨rfl, List.forall_mem_nil _⟩
  | @cons r l rs ls hr hrs ih =>
    obtain ⟨rfl, hwritable⟩ := ih (mapM_eq_ok_iff.mpr hrs)
    unfold savedLine at hr
    split at hr
    · next hw =>
      cases hr
      exact ⟨rfl, List.forall_mem_cons.mpr ⟨hw, hwritable⟩⟩
    · cases hr

theorem results_line (path' : String) (hread : ∀ r ∈ rs, FileResult.ofValue r.toValue = .ok r)
    (hprint : ∀ r ∈ rs, r.IsPrintable) :
    results path' (String.join ((rs.map FileResult.line).map (· ++ "\n"))).toUTF8 = .ok rs := by
  have hlines : (rs.map FileResult.line ++ [""]).filter (fun l => !Text.allBlank l) =
      rs.map FileResult.line := by
    rw [List.filter_append, filter_lines]
    exact List.append_nil _
  have hvalues : (rs.map FileResult.toValue).mapM FileResult.ofValue = .ok rs := by
    rw [List.mapM_map]
    exact (mapM_comp_ok hread).trans (congrArg Except.ok (List.map_id rs))
  rw [results, join_eq_intercalate, readContent, Text.Utf8.decode?_toUTF8]
  simp only [readLines_intercalate path' hprint hlines, ok_bind, hvalues]

theorem results_of_save (h : results path content = .ok rs) (hsave : save rs = .ok content')
    (path' : String) : results path' content' = .ok rs := by
  obtain ⟨ls, hls, heq⟩ := bind_eq_ok_iff.mp hsave
  cases heq
  obtain ⟨rfl, hwritable⟩ := mapM_savedLine hls
  refine results_line path' (fun r hr => ?_) fun r hr =>
    isPrintable_of_results h hr (hwritable r hr)
  obtain ⟨vs, -, hrs⟩ := bind_eq_ok_iff.mp h
  obtain ⟨v, -, hread⟩ := exists_of_mem_mapM hrs hr
  exact FileResult.ofValue_toValue_of_ofValue hread

/-- Loaded and saved again, the file does not change. -/
theorem resave_of_save (h : results path content = .ok rs) (hsave : save rs = .ok content')
    (path' : String) (n : ℕ) : resave path' n content' = .ok content' := by
  induction n with
  | zero => rfl
  | succ n ih => rw [resave, results_of_save h hsave, ok_bind, hsave, ok_bind, ih]

end Saving

/-- A result that is read from any value is written and read again as it is. What was loaded from a
file and saved is loaded again as it was, so the index is the same, and the file is not changed by
further loading and saving. -/
theorem normalised_once :
    (∀ v r, FileResult.ofValue v = .ok r → FileResult.ofValue r.toValue = .ok r) ∧
    ∀ path content rs content', results path content = .ok rs → save rs = .ok content' → ∀ path',
      results path' content' = .ok rs ∧ load path' content' = load path content ∧
      ∀ n, resave path' n content' = .ok content' := by
  refine ⟨fun v r => FileResult.ofValue_toValue_of_ofValue, ?_⟩
  intro path content rs content' h hsave path'
  have hagain := results_of_save h hsave path'
  exact ⟨hagain, by rw [load_eq_results, load_eq_results, hagain, h], resave_of_save h hsave path'⟩

section Sample

def oddPayload : Value :=
  .ofFields [("file", .float (.ofDecimal false 750 (-2))), ("imports", .text "ab"),
    ("pipelineStages", .ofFields [("sinks", .list [
      .ofFields [("operation", .null), ("ordinal", .bool true)]])])]

def oddLine : String :=
  "\x7b\"file\":7.50,\"imports\":\"ab\",\"pipelineStages\":" ++
  "\x7b\"sinks\":[\x7b\"operation\":null,\"ordinal\":true\x7d]\x7d\x7d"

def oddStage : Stage Value := ⟨.sink, .null, [], none, 0, 1⟩

def oddResult : FileResult Value :=
  .extracted ⟨⟨.float (.ofDecimal false 750 (-2)), none, [.text "a", .text "b"]⟩, [], [oddStage], 0⟩

theorem ofValue_oddPayload : FileResult.ofValue oddPayload = .ok oddResult := by
  have hsorted : sortStages [oddStage] = [oddStage] := List.mergeSort_singleton oddStage
  rw [oddResult, ← hsorted]
  rfl

theorem read_oddLine : Json.read (some Text.digitLimit) oddLine = .ok oddPayload := by
  decide +kernel

theorem readLine_oddLine : readLine "odd.jsonl" 1 oddLine = .ok (some oddPayload) := by
  have htrim : Text.trim oddLine = oddLine := by decide +kernel
  rw [readLine, htrim, if_neg (by decide +kernel), read_oddLine]

theorem results_oddLine : results "odd.jsonl" oddLine.toUTF8 = .ok [oddResult] := by
  have hlines : Text.lines oddLine = [oddLine] := by decide +kernel
  have hread : readLines "odd.jsonl" oddLine = .ok [oddPayload] := by
    rw [readLines, hlines]
    simp [readLine_oddLine, List.reduceOption]
  rw [results, readContent, Text.Utf8.decode?_toUTF8]
  simp only [hread, ok_bind, List.mapM_cons, List.mapM_nil, ofValue_oddPayload, pure_eq_ok]

theorem oddLine_normalised : ∃ content', save [oddResult] = .ok content' ∧
    FileResult.ofValue oddResult.toValue = .ok oddResult ∧
    results "new.jsonl" content' = .ok [oddResult] ∧
    ∀ n, resave "new.jsonl" n content' = .ok content' := by
  have hwritable : oddResult.toValue.isWritable = true := by decide +kernel
  have hsave : save [oddResult] = .ok (String.join [oddResult.line ++ "\n"]).toUTF8 := by
    simp [save, savedLine, hwritable]
  obtain ⟨hvalue, hfile⟩ := normalised_once
  obtain ⟨hresults, -, hsame⟩ := hfile _ _ _ _ results_oddLine hsave "new.jsonl"
  exact ⟨_, hsave, hvalue _ _ ofValue_oddPayload, hresults, hsame⟩

end Sample

end CodeAtlas.Index
