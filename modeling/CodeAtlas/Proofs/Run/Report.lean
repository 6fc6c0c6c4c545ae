import CodeAtlas.Proofs.Extract.Scheduling
import CodeAtlas.Proofs.Run.Extraction
import CodeAtlas.Proofs.Run.Steps

/-! # What a run reports

The status of a run says of the lines of its output whether each source has a line that is no
failure, or all lines are failures.
-/

namespace CodeAtlas.Run

section Schedule

variable {plan : Batch.Plan} {s : Batch.State plan} {es : List (Batch.Event plan)}

def interruptsOf (s : Batch.State plan) : Interrupts := ⟨s.results.length, s.cancelled.toNat⟩

theorem count_interruptsOf : (interruptsOf s).count = 0 ↔ s.cancelled = false := by
  simp [interruptsOf]

/-- The interrupts of a cancelled batch come after all results that it has yielded. -/
theorem lt_of_awaits (hs : s.cancelled = true) {n : ℕ}
    (h : (interruptsOf s).count = 0 ∨ n < (interruptsOf s).after) : n < s.yielded.length := by
  simpa [hs, interruptsOf, Batch.State.results] using h

theorem exists_arrival (h : (Batch.State.initial plan).run es = some s) :
    ∃ rest, (s.yielded.map (·.1) ++ rest).Perm plan.jobs := by
  have hs := Batch.State.accounted_of_run h
  have hnodup : (s.yielded.map (·.1)).Nodup := (List.nodup_append'.mp hs.nodup).2.1
  obtain ⟨l, hl, hsublist⟩ := List.subperm_of_subset hnodup fun i _ => List.mem_finRange i
  obtain ⟨rest, hrest⟩ := hsublist.exists_perm_append
  exact ⟨rest, (hl.symm.append_right rest).trans hrest.symm⟩

theorem eq_nil_of_not_cancelled (h : (Batch.State.initial plan).run es = some s)
    (hended : s.phase = .ended) {rest : List plan.Job}
    (hrest : (s.yielded.map (·.1) ++ rest).Perm plan.jobs) (hs : s.cancelled = false) :
    rest = [] := by
  have hall := (Batch.State.accounted_of_run h).jobs_perm ⟨hended, hs⟩
  have hlength := (hrest.trans hall.symm).length_eq
  rw [List.length_append] at hlength
  exact List.length_eq_zero_iff.mp (by omega)

theorem map_result_found (h : (Batch.State.initial plan).run es = some s)
    {found : plan.Job → Yielded} (hfound : ∀ i, (found i).result = plan.result i) :
    (s.yielded.map (found ·.1)).map (·.result) = s.results := by
  rw [(Batch.State.accounted_of_run h).results_eq, List.map_map, List.map_map]
  exact List.map_congr_left fun y _ => hfound y.1

section Extracted

variable {found : plan.Job → Yielded} {stored : Bool} {p : Progress} {taken : List Yielded}
  {refused : Option Yielded} (h : (Batch.State.initial plan).run es = some s)
  (hended : s.phase = .ended) {rest : List plan.Job}
  (hrest : (s.yielded.map (·.1) ++ rest).Perm plan.jobs)
  (hagrees : p.Agrees (interruptsOf s) stored (s.yielded.map (found ·.1) ++ rest.map found) taken
    refused)

include h hended hrest hagrees

/-- An extraction that has not failed stops where the batch did. -/
theorem taken_eq_of_run (hfailure : p.failure = none) :
    taken = s.yielded.map (found ·.1) ∧ p.cancelled = s.cancelled := by
  obtain rfl := hagrees.refused_eq_none hfailure
  have hbefore : taken <+: s.yielded.map (found ·.1) ++ rest.map found := by
    simpa using hagrees.isPrefix
  cases hc : p.cancelled with
  | true =>
    obtain ⟨-, hinterrupted, hlength⟩ := hagrees.cancelled hc
    have hlength : taken.length = (s.yielded.map (found ·.1)).length := by
      rw [hlength, interruptsOf, Batch.State.results, List.length_map, List.length_map]
    have hs : s.cancelled = true := by
      by_contra hs
      exact hinterrupted (count_interruptsOf.mpr (Bool.eq_false_iff.mpr hs))
    exact ⟨(List.prefix_of_prefix_length_le hbefore (List.prefix_append ..)
      hlength.le).eq_of_length hlength, hs.symm⟩
  | false =>
    obtain ⟨rfl, hwait⟩ := hagrees.complete hc hfailure
    cases hs : s.cancelled with
    | false =>
      obtain rfl := eq_nil_of_not_cancelled h hended hrest hs
      exact ⟨List.append_nil _, rfl⟩
    | true =>
      have hlt := lt_of_awaits hs hwait
      rw [List.length_append, List.length_map] at hlt
      omega

/-- Nothing is taken that the batch has not yielded. -/
theorem isPrefix_of_run (hfailure : refused = none → p.failure = none) :
    taken ++ refused.toList <+: s.yielded.map (found ·.1) := by
  cases refused with
  | none =>
    rw [(taken_eq_of_run h hended hrest hagrees (hfailure rfl)).1]
    exact (List.append_nil _).symm ▸ List.prefix_rfl
  | some x =>
    cases hs : s.cancelled with
    | false =>
      obtain rfl := eq_nil_of_not_cancelled h hended hrest hs
      simpa using hagrees.isPrefix
    | true =>
      obtain ⟨-, -, hwait⟩ := hagrees.refusal x rfl
      have hlt := lt_of_awaits hs hwait
      refine List.prefix_of_prefix_length_le hagrees.isPrefix (List.prefix_append ..) ?_
      rw [Option.toList_some, List.length_append, List.length_singleton, List.length_map]
      omega

end Extracted

/-- A batch that came to its end is extracted as it was yielded, up to the first path that is no
text. -/
theorem extract_of_run (h : (Batch.State.initial plan).run es = some s) (hended : s.phase = .ended)
    {rest : List plan.Job} (hrest : (s.yielded.map (·.1) ++ rest).Perm plan.jobs)
    {found : plan.Job → Yielded} (hfound : ∀ i, (found i).result = plan.result i) (tries : ℕ)
    (stored : Bool) {db : Graph.Database String} (honly : db.FailsAsDatabase) :
    let yields := s.yielded.map (found ·.1)
    let results := yields ++ rest.map found
    let p := extract tries (interruptsOf s) stored db plan.workers results
    (p.lines = s.results.map Progress.line ↔ ∀ x ∈ yields, x.IsText) ∧
    (p.lines.length = p.stats.processed + p.stats.failed ↔ ∀ x ∈ yields, x.IsText) ∧
    ∃ taken refused, p.Agrees (interruptsOf s) stored results taken refused ∧
      taken ++ refused.toList <+: yields ∧ (refused = none ↔ ∀ x ∈ yields, x.IsText) ∧
      (refused = none → taken = yields ∧ p.cancelled = s.cancelled ∧ p.failure = none) ∧
      ∀ t ∈ p.ingestion, t.total = p.lines.length := by
  intro yields results p
  obtain ⟨taken, refused, hagrees, htotal, hfailure⟩ :=
    exists_extract_agrees tries (interruptsOf s) stored db plan.workers results
  have hfailure : refused = none → p.failure = none :=
    hfailure honly (Bool.toNat_le _) (by exact_mod_cast plan.workers_pos)
  have hbefore : taken ++ refused.toList <+: yields :=
    isPrefix_of_run h hended hrest hagrees hfailure
  have hwhole : refused = none → taken = yields ∧ p.cancelled = s.cancelled := fun hnone =>
    taken_eq_of_run h hended hrest hagrees (hfailure hnone)
  have htexts : refused = none ↔ ∀ x ∈ yields, x.IsText := by
    constructor
    · intro hnone
      rw [← (hwhole hnone).1]
      exact hagrees.texts
    · intro hall
      refine Option.eq_none_iff_forall_ne_some.mpr fun x hx => (hagrees.refusal x hx).1 ?_
      exact hall x (hbefore.subset (by simp [hx]))
  refine ⟨?_, ?_, taken, refused, hagrees, hbefore, htexts, fun hnone => ?_, htotal (.inr honly)⟩
  · rw [← htexts, ← map_result_found h hfound]
    exact hagrees.lines_eq_iff hbefore fun hnone => (hwhole hnone).1
  · rw [← htexts]
    exact hagrees.length_lines_iff
  · obtain ⟨htaken, hcancelled⟩ := hwhole hnone
    exact ⟨htaken, hcancelled, hfailure hnone⟩

end Schedule

section Status

variable (w : Work)

theorem Work.status_eq : w.status =
    if 0 < w.handled ∧ w.handled ≤ w.extraction.failed then "failed"
    else if w.cancelled = true ∨ 0 < w.extraction.failed then "partial_success"
    else "success" := by
  have hfinal : finalStatus w.handled w.extraction.failed =
      if 0 < w.handled ∧ w.handled ≤ w.extraction.failed then "failed"
      else if 0 < w.extraction.failed then "partial_success"
      else "success" := by
    simp only [finalStatus, Bool.and_eq_true, decide_eq_true_eq, Nat.cast_pos, Nat.cast_le]
  rw [Work.status, hfinal]
  by_cases hall : 0 < w.handled ∧ w.handled ≤ w.extraction.failed
  · simp only [if_pos hall]
    cases w.cancelled <;> rfl
  · by_cases hsome : 0 < w.extraction.failed
    · cases w.cancelled <;> simp [hall, hsome]
    · cases w.cancelled <;> simp [hall, hsome]

theorem Work.status_eq_failed :
    w.status = "failed" ↔ 0 < w.handled ∧ w.handled ≤ w.extraction.failed := by
  rw [w.status_eq]
  split_ifs with hall hsome <;> simp [hall]

theorem Work.status_eq_success :
    w.status = "success" ↔ w.cancelled = false ∧ w.extraction.failed = 0 := by
  have hle : w.extraction.failed ≤ w.handled := Nat.le_add_left ..
  rw [w.status_eq]
  split_ifs with hall hsome
  · refine iff_of_false (by decide) fun h => ?_
    omega
  · refine iff_of_false (by decide) fun h => ?_
    rcases hsome with hc | hpos
    · rw [h.1] at hc
      cases hc
    · omega
  · refine iff_of_true rfl ⟨?_, ?_⟩
    · exact Bool.eq_false_iff.mpr fun hc => hsome (.inl hc)
    · omega

theorem Work.status_mem : w.status ∈ ["success", "failed", "partial_success"] := by
  rw [w.status_eq]
  split_ifs <;> decide

end Status

theorem toValue_eq_of_line_eq {r r' : FileResult String}
    (h : Progress.line r = Progress.line r') : r.toValue = r'.toValue := by
  have hread := r.isPlain_toValue.read_print
  rw [← Progress.line, h, Progress.line, r'.isPlain_toValue.read_print] at hread
  exact (Except.ok.inj hread).symm

theorem path_eq_of_line_eq {r r' : FileResult String}
    (h : Progress.line r = Progress.line r') : r.path = r'.path := by
  have hvalue := toValue_eq_of_line_eq h
  cases r <;> cases r' <;>
    simp_all [FileResult.toValue, FileResult.toFields, FileExtraction.toFields_eq, Value.ofFields,
      FileResult.path, Cell.toValue]

/-- Whether a source was extracted can be read off the lines. -/
theorem forall_extracted_iff {parser : Extract.Parser} {fs : Files} {v : Vocabulary}
    {tolerant : Bool} {ts : List Target} {results : List Yielded}
    (hperm : results.Perm (ts.map (Target.yielded parser fs v tolerant)))
    (htexts : ∀ x ∈ results, x.IsText) :
    (∀ x ∈ results, x.result.extraction?.isSome) ↔ ∀ t ∈ ts, ∃ e : FileExtraction String,
      .ofString e.path = t.recorded fs.home ∧
        Progress.line (.extracted e) ∈ (results.map (·.result)).map Progress.line := by
  have hrecorded {t : Target} (ht : t.yielded parser fs v tolerant ∈ results) :
      .ofString (t.yielded parser fs v tolerant).result.path = t.recorded fs.home := by
    rw [← t.path_yielded parser fs v tolerant]
    exact (htexts _ ht).symm
  constructor
  · intro hall t ht
    have hmem : t.yielded parser fs v tolerant ∈ results :=
      hperm.mem_iff.mpr (List.mem_map_of_mem ht)
    have hsome := hall _ hmem
    cases hr : (t.yielded parser fs v tolerant).result with
    | extracted e =>
      refine ⟨e, ?_, List.mem_map_of_mem (List.mem_map.mpr ⟨_, hmem, hr⟩)⟩
      rw [← hrecorded hmem, hr]
      rfl
    | failed path reason =>
      rw [hr] at hsome
      cases hsome
  · intro hall x hx
    obtain ⟨t, ht, rfl⟩ := List.mem_map.mp (hperm.mem_iff.mp hx)
    obtain ⟨e, he, hline⟩ := hall t ht
    obtain ⟨r', hr', heq⟩ := List.mem_map.mp hline
    obtain ⟨x', hx', rfl⟩ := List.mem_map.mp hr'
    obtain ⟨t', -, rfl⟩ := List.mem_map.mp (hperm.mem_iff.mp hx')
    have hsame : t'.yielded parser fs v tolerant = t.yielded parser fs v tolerant := by
      refine Target.yielded_congr ((Target.isText_yielded ..).mp (htexts _ hx'))
        ((Target.isText_yielded ..).mp (htexts _ hx)) ?_
      rw [← hrecorded hx', path_eq_of_line_eq heq]
      exact he
    have herror := isErrorLine_line (t'.yielded parser fs v tolerant).result
    rw [heq, isErrorLine_line, hsame] at herror
    exact Option.isSome_iff_ne_none.mpr fun hnone => by rw [hnone] at herror; cases herror

/-- Whether the batch of a run was cancelled; without sources there is no batch. -/
def Report.isCancelled (r : Report) : Bool := (r.work.map (·.cancelled)).getD false

/-- What a report says of the sources of a run and of the lines of its output. -/
structure Report.Tells (report : Report) (a : Command.Arguments) (home : String)
    (ts : List Target) (lines : List String) : Prop where
  discovered : report.discovered = ts.length
  written : ∀ w ∈ report.work, lines.length = w.extraction.processed + w.extraction.failed ∧
    lines.countP isErrorLine = w.extraction.failed
  stored : ∀ w ∈ report.work, w.ingestion.isSome = a.ingest ∧
    ∀ t ∈ w.ingestion, t.total = lines.length
  success : report.status = "success" ↔ report.isCancelled = false ∧
    ∀ t ∈ ts, ∃ e : FileExtraction String,
      .ofString e.path = t.recorded home ∧ Progress.line (.extracted e) ∈ lines
  failed : report.status = "failed" ↔ lines ≠ [] ∧ ∀ l ∈ lines, isErrorLine l
  otherwise : report.status ∈ ["success", "failed", "partial_success"]
  /-- A run with a path that is no text is cancelled, if it reports at all. -/
  files : report.isCancelled = false → ∀ t ∈ ts, t.IsFile

section Run

variable {c : Circumstances} {a : Command.Arguments} {s s' : State} {report : Report}
  {ts : List Target} {p : Progress}

theorem tells_of_no_work (home : String) (hdiscovered : report.discovered = 0)
    (hwork : report.work = none) : report.Tells a home [] [] := by
  have hsuccess : report.status = "success" := by rw [Report.status, hwork]; rfl
  refine ⟨hdiscovered, by simp [hwork], by simp [hwork], ?_, ?_, ?_, fun _ => nofun⟩
  · exact iff_of_true hsuccess ⟨by rw [Report.isCancelled, hwork]; rfl, nofun⟩
  · exact iff_of_false (by rw [hsuccess]; decide) fun h => h.1 rfl
  · rw [hsuccess]
    decide

theorem HasExtracted.exists_agrees (h : HasExtracted c a ts s s' p) :
    ∃ fs v taken, fs.home = s.files.home ∧
      p.Agrees c.interrupts a.ingest
        (c.arrival (ts.map (Target.yielded c.parser fs v a.tolerant))) taken none ∧
      ∀ t ∈ p.ingestion, t.total = p.lines.length := by
  obtain ⟨⟨fs, v, db, workers, hhome, hp⟩, hfailure, -⟩ := h
  obtain ⟨taken, refused, hagrees, htotal, -⟩ := exists_extract_agrees c.tries c.interrupts a.ingest
    db workers (c.arrival (ts.map (Target.yielded c.parser fs v a.tolerant)))
  rw [← hp] at hagrees htotal
  obtain rfl := hagrees.refused_eq_none hfailure
  exact ⟨fs, v, taken, hhome, hagrees, htotal (.inl hfailure)⟩

theorem tells_of_work (harrival : ∀ xs, (c.arrival xs).Perm xs)
    (hdiscovered : report.discovered = ts.length) (h : HasExtracted c a ts s s' p)
    (hwork : report.work = some ⟨p.stats, p.ingestion, p.cancelled⟩) :
    report.Tells a s.files.home ts p.lines := by
  obtain ⟨fs, v, taken, hhome, hagrees, htotal⟩ := h.exists_agrees
  rw [← hhome]
  have hperm := harrival (ts.map (Target.yielded c.parser fs v a.tolerant))
  have hstatus : report.status = (Work.mk p.stats p.ingestion p.cancelled).status := by
    rw [Report.status, hwork]
    rfl
  have hcancelled : report.isCancelled = p.cancelled := by
    rw [Report.isCancelled, hwork]
    rfl
  have hlength : p.lines.length = p.stats.processed + p.stats.failed := hagrees.length.symm
  have herrors : p.lines.countP isErrorLine = p.stats.failed := hagrees.errors.symm
  refine ⟨hdiscovered, ?_, ?_, ?_, ?_, ?_, ?_⟩
  · rw [hwork]
    rintro w ⟨⟩
    exact ⟨hlength, herrors⟩
  · rw [hwork]
    rintro w ⟨⟩
    exact ⟨hagrees.stored, htotal⟩
  · rw [hstatus, Work.status_eq_success, hcancelled]
    refine and_congr_right fun hc => ?_
    obtain ⟨rfl, -⟩ := hagrees.complete hc h.failure
    rw [← herrors, hagrees.lines, ← forall_extracted_iff hperm hagrees.texts,
      countP_isErrorLine, List.countP_map, List.countP_eq_zero]
    refine forall₂_congr fun x _ => ?_
    rw [Function.comp_apply]
    cases x.result.extraction? <;> simp
  · rw [hstatus, Work.status_eq_failed, Work.handled, ← hlength, ← herrors]
    have hpos : 0 < p.lines.length ↔ p.lines ≠ [] := List.length_pos_iff
    have hle : p.lines.countP isErrorLine ≤ p.lines.length := List.countP_le_length
    rw [hpos, ← List.countP_eq_length]
    exact and_congr_right fun _ => by omega
  · rw [hstatus]
    exact Work.status_mem _
  · rw [hcancelled]
    intro hc t ht
    obtain ⟨rfl, -⟩ := hagrees.complete hc h.failure
    exact (Target.isText_yielded ..).mp
      (hagrees.texts _ (hperm.mem_iff.mpr (List.mem_map_of_mem ht)))

end Run

/-- Every extraction has a line for each result that it took, and its counts are those of the lines,
up to a result whose path is no text: that one is counted without a line and ends the extraction.
So whatever the database refuses, the lines are those of all results that a schedule of the batch
yields, and as many as are counted, if and only if all their paths are texts. What a run reports
agrees with the lines that it has written. -/
theorem extract_and_run_agree (tries : ℕ) (stored : Bool) (db : Graph.Database String) :
    (∀ (signals : Interrupts) (workers : ℤ) (results : List Yielded),
      let p := extract tries signals stored db workers results
      ∃ taken refused, p.Agrees signals stored results taken refused ∧
        (p.failure = none ∨ db.FailsAsDatabase → ∀ t ∈ p.ingestion, t.total = p.lines.length) ∧
        (db.FailsAsDatabase → signals.count ≤ 1 → 0 < workers →
          (p.failure = none ↔ refused = none))) ∧
    (db.FailsAsDatabase → ∀ (plan : Batch.Plan) (es : List (Batch.Event plan))
        (s : Batch.State plan),
      (Batch.State.initial plan).run es = some s → s.phase = .ended →
      ∃ rest, (s.yielded.map (·.1) ++ rest).Perm plan.jobs ∧
        ∀ found : plan.Job → Yielded, (∀ i, (found i).result = plan.result i) →
          let yields := s.yielded.map (found ·.1)
          let results := yields ++ rest.map found
          let p := extract tries (interruptsOf s) stored db plan.workers results
          yields.map (·.result) = s.results ∧
          (p.lines = s.results.map Progress.line ↔ ∀ x ∈ yields, x.IsText) ∧
          (p.lines.length = p.stats.processed + p.stats.failed ↔ ∀ x ∈ yields, x.IsText) ∧
          ∃ taken refused, p.Agrees (interruptsOf s) stored results taken refused ∧
            taken ++ refused.toList <+: yields ∧ (refused = none ↔ ∀ x ∈ yields, x.IsText) ∧
            (refused = none → taken = yields ∧ p.cancelled = s.cancelled ∧ p.failure = none) ∧
            ∀ t ∈ p.ingestion, t.total = p.lines.length) ∧
    ∀ (c : Circumstances) (a : Command.Arguments) (s s' : State) (report : Report),
      (∀ xs, (c.arrival xs).Perm xs) → (run c a).run.run s = (.ok report, s') →
      ∃ ts lines, targets c s.files a = .ok ts ∧
        (∀ l ∈ lines, ∀ ch ∈ l.toList, ¬ Text.IsBreak ch) ∧
        (ts ≠ [] → s'.files.read a.outputFile =
          .ok (String.join (lines.map (· ++ "\n"))).toUTF8) ∧
        report.Tells a s.files.home ts lines := by
  refine ⟨fun signals workers results => ?_, fun honly plan es s h hended => ?_,
    fun c a s s' report harrival h => ?_⟩
  · obtain ⟨taken, refused, hagrees, htotal, hfailure⟩ :=
      exists_extract_agrees tries signals stored db workers results
    exact ⟨taken, refused, hagrees, htotal, fun honly hcount hpos =>
      ⟨hagrees.refused_eq_none, hfailure honly hcount hpos⟩⟩
  · obtain ⟨rest, hrest⟩ := exists_arrival h
    exact ⟨rest, hrest, fun found hfound =>
      ⟨map_result_found h hfound, extract_of_run h hended hrest hfound tries stored honly⟩⟩
  · obtain ⟨ts, htargets, hdiscovered, ⟨rfl, hwork⟩ | ⟨-, p, hp, hwork⟩⟩ := of_run h
    · exact ⟨[], [], htargets, nofun, fun hne => absurd rfl hne,
        tells_of_no_work _ hdiscovered hwork⟩
    · obtain ⟨_, _, _, -, hagrees, -⟩ := hp.exists_agrees
      exact ⟨ts, p.lines, htargets, hagrees.unbroken, fun _ => hp.output,
        tells_of_work harrival hdiscovered hp hwork⟩

/-- A file with a class, and a graph that refuses it. -/
def loneFile : State where
  files := ⟨"/srv", .directory [("srv", .directory [("A.java", .file "class A \x7b\x7d".toUTF8)])]⟩
  database := .fresh [] [] [some (.raised .client "constraint")]
  warnings := []

def loneCircumstances : Circumstances where
  environment := ⟨[]⟩
  parser := Java.tree
  reader := Yaml.read
  runId := "run"
  now := "2024-01-01T00:00:00+00:00"
  workers := 8
  tries := Graph.attempts
  interrupts := .none
  strays _ := []
  arrival := id
  connect _ := return

def loneArguments : Command.Arguments where
  sourceDirectory := none
  file := some "A.java"
  outputFile := "out.jsonl"
  workers := some 1
  vocabulary := none
  strict := false
  tolerant := false
  ingest := true
  reportDirectory := "reports"

theorem extract_and_run_agree_lone :
    (∃ report s', (run loneCircumstances loneArguments).run.run loneFile = (.ok report, s') ∧
      report.status = "success" ∧ ∃ lines, s'.files.read "out.jsonl" =
        .ok (String.join (lines.map (· ++ "\n"))).toUTF8 ∧
        report.Tells loneArguments "/srv" [.file "/srv/A.java"] lines ∧
        ∃ e : FileExtraction String,
          e.path = "/srv/A.java" ∧ Progress.line (.extracted e) ∈ lines) ∧
    ∃ s rest, (Batch.State.initial .twice).run Batch.Plan.overtaking = some s ∧
      (extract Graph.attempts (interruptsOf s) true loneFile.database 1
        (s.yielded.map (fun y => .ofResult (Batch.Plan.twice.result y.1)) ++ rest)).lines =
        s.results.map Progress.line := by
  obtain ⟨-, hplan, hrun⟩ := extract_and_run_agree Graph.attempts true loneFile.database
  constructor
  · have hstatus : (match ((run loneCircumstances loneArguments).run.run loneFile).1 with
        | .ok report => report.status
        | .error _ => "") = "success" := by decide +kernel
    have hsources : (sources loneFile.files loneArguments).toOption = some ["/srv/A.java"] := by
      decide +kernel
    rcases hout : (run loneCircumstances loneArguments).run.run loneFile with ⟨why | report, s'⟩
    · rw [hout] at hstatus
      have hempty : "" = "success" := hstatus
      exact absurd hempty (by decide)
    · rw [hout] at hstatus
      obtain ⟨ts, lines, hts, -, hread, htells⟩ :=
        hrun _ _ _ _ _ (fun xs => .refl xs) hout
      obtain rfl : [.file "/srv/A.java"] = ts := by
        rw [targets] at hts
        cases hpaths : sources loneFile.files loneArguments with
        | error why =>
          rw [hpaths] at hts
          cases hts
        | ok paths =>
          rw [hpaths] at hts hsources
          obtain rfl := Option.some.inj hsources
          exact (List.mergeSort_singleton _).symm.trans (Except.ok.inj hts)
      obtain ⟨e, he, hline⟩ := (htells.success.mp hstatus).2 _ List.mem_cons_self
      have habsolute : Path.absolute "/srv" "/srv/A.java" = "/srv/A.java" := by decide +kernel
      have hpath : e.path = "/srv/A.java" :=
        (Text.LooseText.ofString_injective he).trans habsolute
      exact ⟨report, s', rfl, hstatus, lines, hread (List.cons_ne_nil _ _), htells, e, hpath, hline⟩
  · obtain ⟨s, hs, hended⟩ :
        ∃ s, (Batch.State.initial .twice).run Batch.Plan.overtaking = some s ∧ s.phase = .ended :=
      ⟨_, rfl, rfl⟩
    have hrefuses : loneFile.database.FailsAsDatabase := by
      intro why hwhy
      obtain rfl : why = .raised .client "constraint" := by
        simpa [loneFile, Graph.Database.fresh] using hwhy
      rfl
    obtain ⟨rest, -, hextract⟩ := hplan hrefuses _ _ s hs hended
    let found (i : Batch.Plan.twice.Job) : Yielded := .ofResult (Batch.Plan.twice.result i)
    obtain ⟨-, hlines, -⟩ := hextract found fun i => Yielded.result_ofResult _
    refine ⟨s, rest.map found, hs, hlines.mpr fun x hx => ?_⟩
    obtain ⟨y, -, rfl⟩ := List.mem_map.mp hx
    exact Yielded.isText_ofResult _

/-- A source whose name is in another encoding. -/
def latinSource : Stray where
  octets := "/srv/d/Caf".toUTF8.toList ++ 0xe9 :: ".java".toUTF8.toList
  content := "class A \x7b\x7d".toUTF8
  illegible := by decide +kernel

def latinFile : State where
  files := ⟨"/srv", .directory [("srv", .directory [("d", .directory [])])]⟩
  database := .fresh [] [] []
  warnings := []

def latinCircumstances : Circumstances :=
  { loneCircumstances with strays := fun top => if top = "/srv/d" then [latinSource] else [] }

def latinArguments : Command.Arguments :=
  { loneArguments with sourceDirectory := some "d", file := none, ingest := false }

def refusal? : Result Report → Option String
  | .ok _ => none
  | .error why => some why.message

/-- The source is extracted and counted, it has no line, and the run fails. -/
theorem latinFile_refused :
    (let x := (Target.stray latinSource).yielded Java.tree latinFile.files .standard false
      let p := extract Graph.attempts .none false latinFile.database 1 [x]
      p.lines = [] ∧ p.stats.processed = 1 ∧ p.failure.isSome = true) ∧
    let ended := (run latinCircumstances latinArguments).run.run latinFile
    refusal? ended.1 = some ("'utf-8' codec can't encode character '\\udce9' in position 20: " ++
      "surrogates not allowed") ∧
      (ended.2.files.read "out.jsonl").toOption = some .empty := by
  decide +kernel

end CodeAtlas.Run
