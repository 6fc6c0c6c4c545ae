import CodeAtlas.Proofs.Exchange.Line
import CodeAtlas.Proofs.Graph.Accounting
import CodeAtlas.Proofs.Model.Statistics
import CodeAtlas.Proofs.Run.Written

/-! # Lines, statistics and what is stored

The output of an extraction has one line for each result that was taken, whatever the graph did
with it. The statistics count the same results, and so does the graph, if it fails only as a
database does. A result whose path is no text is counted, but has no line; it ends the extraction.
-/

namespace CodeAtlas

/-- The number of results that were stored or could not be stored. -/
def Graph.IngestionStats.total (s : IngestionStats) : ℕ := s.files + s.errorFiles + s.writeErrors

/-- Transactions fail as those of a database do, if they fail. -/
def Graph.Database.FailsAsDatabase (db : Database String) : Prop :=
  ∀ why, some why ∈ db.onTransaction → why.isOfDatabase = true

namespace Run

/-- The line of a result that mentions an error. -/
def isErrorLine (l : String) : Bool :=
  match Json.read none l with
  | .ok v => (v.mentions "error").toOption.getD false
  | .error _ => false

theorem isErrorLine_line (r : FileResult String) :
    isErrorLine (Progress.line r) = r.extraction?.isNone := by
  rw [isErrorLine, Progress.line, r.isPlain_toValue.read_print]
  cases r with
  | extracted e =>
    simp only [mentions_error_extracted]
    rfl
  | failed path reason =>
    have hmentions : (FileResult.failed path reason).toValue.mentions "error" = .ok true := by
      simp [FileResult.toValue, FileResult.toFields, List.lookup_cons]
    simp only [hmentions]
    rfl

theorem countP_isErrorLine (rs : List (FileResult String)) :
    (rs.map Progress.line).countP isErrorLine = rs.countP (·.extraction?.isNone) := by
  rw [List.countP_map]
  exact List.countP_congr fun r _ => by rw [Function.comp_apply, isErrorLine_line]

theorem length_eq_countP (rs : List (FileResult String)) :
    rs.length = rs.countP (·.extraction?.isSome) + rs.countP (·.extraction?.isNone) := by
  rw [List.length_eq_countP_add_countP (·.extraction?.isSome)]
  congr 1
  exact List.countP_congr fun r _ => by cases r <;> simp [FileResult.extraction?]

theorem stats_ofResults (rs : List (FileResult String)) :
    (ExtractionStats.ofResults rs).processed = rs.countP (·.extraction?.isSome) ∧
      (ExtractionStats.ofResults rs).failed = rs.countP (·.extraction?.isNone) := by
  have hcount := ExtractionStats.isCount_ofResults rs
  have hprocessed : (ExtractionStats.ofResults rs).processed =
      rs.countP (·.extraction?.isSome) := by
    rw [hcount.processed, List.length_filterMap_eq_countP]
  have htotal := hcount.failed
  rw [hprocessed, length_eq_countP] at htotal
  exact ⟨hprocessed, Nat.add_left_cancel htotal⟩

theorem total_of_settle {s t : Graph.IngestionStats} {a : Graph.Account}
    (h : a.settle s = .ok t) : t.total = s.total + 1 := by
  rcases Graph.of_settle_eq_ok h with ⟨-, rfl⟩ | ⟨why, -, -, rfl⟩
  · cases hr : a.result <;>
      simp only [Graph.IngestionStats.total, Graph.IngestionStats.record] <;> omega
  · simp only [Graph.IngestionStats.total, Graph.IngestionStats.recordError]
    omega

namespace Progress

/-- How far an extraction has come when it has written some results and was refused one. -/
structure HasTaken (signals : Interrupts) (stored : Bool) (db : Graph.Database String)
    (taken : List Yielded) (refused : Option Yielded) (p : Progress) : Prop where
  stats : p.stats = .ofResults ((taken ++ refused.toList).map (·.result))
  texts : ∀ x ∈ taken, x.IsText
  lines : p.lines = (taken.map (·.result)).map line
  stored : p.ingestion.isSome = stored
  script : ∀ reply ∈ p.database.onTransaction, reply ∈ db.onTransaction
  counted : (∀ s ∈ p.ingestion, s.total = taken.length) ∨
    ∃ why ∈ p.failure, why.isOfDatabase = false ∧ some why ∈ db.onTransaction
  failure : ∀ why ∈ p.failure, 2 ≤ signals.count ∨
    why.isOfDatabase = false ∧ some why ∈ db.onTransaction ∨ refused.isSome
  refusal : ∀ x ∈ refused, (∃ why, x.written = .error why ∧ p.failure = some why) ∧
    (signals.count = 0 ∨ taken.length < signals.after)
  cancelled : p.cancelled = true → refused = none ∧ signals.count ≠ 0 ∧ taken.length = signals.after

def Awaits (signals : Interrupts) (taken : List Yielded) (p : Progress) : Prop :=
  p.isStopped = false → signals.count = 0 ∨ taken.length < signals.after

section Taking

variable {tries : ℕ} {signals : Interrupts} {stored : Bool} {db : Graph.Database String}
  {taken : List Yielded} {p : Progress}

theorem isStopped_eq_false : p.isStopped = false ↔ p.cancelled = false ∧ p.failure = none := by
  simp [isStopped]

theorem HasTaken.counted_of_running (h : p.HasTaken signals stored db taken none)
    (hfailure : p.failure = none) : ∀ s ∈ p.ingestion, s.total = taken.length := by
  rcases h.counted with hcounted | ⟨why, hwhy, -⟩
  · exact hcounted
  · rw [hfailure] at hwhy
    cases hwhy

theorem HasTaken.ask (h : p.HasTaken signals stored db taken none) :
    (p.ask signals).HasTaken signals stored db taken none := by
  rw [Progress.ask]
  split
  · exact h
  · next hgo =>
    have hrunning : p.cancelled = false ∧ p.failure = none := by
      simp [isStopped] at hgo
      exact hgo.1
    have hafter : p.lines.length = signals.after := by
      simp at hgo
      exact hgo.2
    rw [h.lines, List.length_map, List.length_map] at hafter
    rw [hrunning.1]
    refine { h with counted := .inl (h.counted_of_running hrunning.2), failure := ?_
                    refusal := nofun, cancelled := ?_ }
    · rcases hcount : signals.count with _ | _ | count
      · exact nofun
      · exact nofun
      · exact fun _ _ => .inl (by omega)
    · rcases hcount : signals.count with _ | count
      · exact nofun
      · exact fun _ => ⟨rfl, Nat.succ_ne_zero count, hafter⟩

theorem HasTaken.ask_awaits (h : p.HasTaken signals stored db taken none)
    (hle : signals.count = 0 ∨ taken.length ≤ signals.after) :
    (p.ask signals).Awaits signals taken := by
  have hlength : p.lines.length = taken.length := by
    rw [h.lines, List.length_map, List.length_map]
  rw [Awaits, Progress.ask, hlength]
  split
  · next hstay =>
    intro hgo
    have hne : taken.length ≠ signals.after := by simpa [hgo] using hstay
    omega
  · next hask =>
    have hrunning : p.cancelled = false := by
      simp [isStopped] at hask
      exact hask.1.1
    rw [hrunning]
    rcases hcount : signals.count with _ | _ | count
    · exact fun _ => .inl rfl
    · exact nofun
    · exact nofun

theorem HasTaken.stats_record (h : p.HasTaken signals stored db taken none) (x : Yielded) :
    p.stats.record x.result = .ofResults ((taken ++ [x]).map (·.result)) := by
  rw [h.stats, ExtractionStats.ofResults, ExtractionStats.ofResults, List.map_append,
    List.map_append, List.foldl_append, List.foldl_append]
  rfl

variable (tries) in
theorem HasTaken.store (h : p.HasTaken signals stored db taken none)
    (hgo : p.isStopped = false) {x : Yielded} (hx : x.IsText) :
    ({ p with stats := p.stats.record x.result, lines := p.lines ++ [line x.result] }.store
      tries x.result).HasTaken signals stored db (taken ++ [x]) none := by
  obtain ⟨hrunning, hfailure⟩ := isStopped_eq_false.mp hgo
  have hcounted := h.counted_of_running hfailure
  have hstats : p.stats.record x.result =
      .ofResults ((taken ++ [x] ++ (none : Option Yielded).toList).map (·.result)) := by
    rw [h.stats_record, Option.toList_none, List.append_nil]
  have htexts : ∀ y ∈ taken ++ [x], y.IsText := by
    simpa [or_imp, forall_and, hx] using h.texts
  have hlines : p.lines ++ [line x.result] = ((taken ++ [x]).map (·.result)).map line := by
    rw [h.lines, List.map_append, List.map_append]
    rfl
  rw [Progress.store]
  split
  · next hnone =>
    have hnone : p.ingestion = none := hnone
    exact { stats := hstats, texts := htexts, lines := hlines, stored := h.stored
            script := h.script, counted := .inl (by simp [hnone]), failure := by simp [hfailure]
            refusal := nofun, cancelled := by simp [hrunning] }
  · next s hsome =>
    have hsome : p.ingestion = some s := hsome
    obtain ⟨a, -, -, hreplies, hout⟩ :=
      Graph.exists_outcome_ingestOrCount none (Nat.le_max_right tries 1) s x.result p.database
    rw [Graph.ingestOrCount_max] at hout
    have hscript : ∀ reply ∈ p.database.onTransaction.drop a.replies.length,
        reply ∈ db.onTransaction := fun reply hreply => h.script reply (List.mem_of_mem_drop hreply)
    rw [hout]
    cases hsettle : a.settle s with
    | ok t =>
      refine { stats := hstats, texts := htexts, lines := hlines, stored := ?_, script := hscript
               counted := .inl ?_, failure := by simp [hfailure], refusal := nofun
               cancelled := by simp [hrunning] }
      · rw [← h.stored, hsome]
        rfl
      · rintro u ⟨⟩
        rw [total_of_settle hsettle, hcounted s hsome, List.length_append, List.length_singleton]
    | error why =>
      -- The error is the last reply that the database gave.
      obtain ⟨hreply, hof⟩ := Graph.of_settle_eq_error hsettle
      have hmem : some why ∈ db.onTransaction := by
        have hlast : some why ∈ a.replies := by simp [Graph.Account.replies, hreply]
        rw [← hreplies] at hlast
        exact h.script _ (Graph.mem_of_mem_upcoming hlast)
      refine { stats := hstats, texts := htexts, lines := hlines, stored := h.stored
               script := hscript, counted := .inr ⟨why, rfl, hof, hmem⟩, failure := ?_
               refusal := nofun, cancelled := by simp [hrunning] }
      rintro why' ⟨⟩
      exact .inr (.inl ⟨hof, hmem⟩)

theorem HasTaken.take (h : p.HasTaken signals stored db taken none)
    (hgo : p.isStopped = false) (hwait : p.Awaits signals taken) {x : Yielded} (hx : x.IsText) :
    (p.take tries signals x).HasTaken signals stored db (taken ++ [x]) none ∧
      (p.take tries signals x).Awaits signals (taken ++ [x]) := by
  have hstore := h.store tries hgo hx
  rw [Progress.take, hx.written_eq]
  refine ⟨hstore.ask, hstore.ask_awaits ?_⟩
  have hlt := hwait hgo
  rw [List.length_append, List.length_singleton]
  omega

/-- A result whose path is no text is counted, and ends the extraction. -/
theorem HasTaken.take_refused (h : p.HasTaken signals stored db taken none)
    (hgo : p.isStopped = false) (hwait : p.Awaits signals taken) {x : Yielded} (hx : ¬ x.IsText) :
    (p.take tries signals x).HasTaken signals stored db taken (some x) ∧
      (p.take tries signals x).isStopped = true := by
  obtain ⟨hrunning, hfailure⟩ := isStopped_eq_false.mp hgo
  obtain ⟨fault, hwritten⟩ := Yielded.exists_written_eq_error hx
  rw [Progress.take, hwritten]
  refine ⟨{ h with stats := h.stats_record x, counted := .inl (h.counted_of_running hfailure)
                   failure := fun _ _ => .inr (.inr rfl), refusal := ?_
                   cancelled := by simp [hrunning] }, by simp [isStopped]⟩
  rintro y ⟨⟩
  exact ⟨⟨_, hwritten, rfl⟩, hwait hgo⟩

theorem consume_of_isStopped (h : p.isStopped = true) (results : List Yielded) :
    Batch.consume isStopped (Progress.take tries signals) p results = p := by
  cases results with
  | nil => rfl
  | cons x results => rw [Batch.consume, if_pos h]

theorem HasTaken.exists_consume (h : p.HasTaken signals stored db taken none)
    (hwait : p.Awaits signals taken) (results : List Yielded) :
    ∃ more refused, more ++ refused.toList <+: results ∧
      (Batch.consume isStopped (Progress.take tries signals) p results).HasTaken signals stored db
        (taken ++ more) refused ∧
      (Batch.consume isStopped (Progress.take tries signals) p results).Awaits signals
        (taken ++ more) ∧
      ((Batch.consume isStopped (Progress.take tries signals) p results).isStopped = false →
        more = results) := by
  induction results generalizing p taken with
  | nil =>
    refine ⟨[], none, List.nil_prefix, ?_, ?_, fun _ => rfl⟩
    · rwa [List.append_nil]
    · rwa [List.append_nil]
  | cons x results ih =>
    cases hgo : p.isStopped with
    | true =>
      rw [consume_of_isStopped hgo, hgo]
      refine ⟨[], none, List.nil_prefix, ?_, ?_, nofun⟩
      · rwa [List.append_nil]
      · rwa [List.append_nil]
    | false =>
      rw [Batch.consume, if_neg (by simp [hgo])]
      by_cases hx : x.IsText
      · obtain ⟨htaken, hwaits⟩ := h.take hgo hwait hx
        obtain ⟨more, refused, hbefore, htaken, hwaits, hall⟩ := ih htaken hwaits
        rw [List.append_assoc, List.singleton_append] at htaken hwaits
        refine ⟨x :: more, refused, List.cons_prefix_cons.mpr ⟨rfl, hbefore⟩, htaken, hwaits,
          fun hrunning => ?_⟩
        rw [hall hrunning]
      · obtain ⟨htaken, hstopped⟩ := h.take_refused hgo hwait hx
        rw [consume_of_isStopped hstopped, hstopped]
        refine ⟨[], some x, ⟨results, rfl⟩, ?_, ?_, nofun⟩
        · rwa [List.append_nil]
        · rw [Awaits, hstopped]
          exact nofun

end Taking

/-- What lines, statistics and stored results say of the results that were taken: those that were
written, and the one that was refused for its path, if there was one. -/
structure Agrees (p : Progress) (signals : Interrupts) (stored : Bool)
    (results taken : List Yielded) (refused : Option Yielded) : Prop where
  isPrefix : taken ++ refused.toList <+: results
  texts : ∀ x ∈ taken, x.IsText
  lines : p.lines = (taken.map (·.result)).map line
  unbroken : ∀ l ∈ p.lines, ∀ c ∈ l.toList, ¬ Text.IsBreak c
  stats : p.stats = .ofResults ((taken ++ refused.toList).map (·.result))
  length : p.stats.processed + p.stats.failed = p.lines.length + refused.toList.length
  errors : p.stats.failed =
    p.lines.countP isErrorLine + refused.toList.countP (·.result.extraction?.isNone)
  stored : p.ingestion.isSome = stored
  /-- The refusal ends the extraction. -/
  refusal : ∀ x ∈ refused, ¬ x.IsText ∧ (∃ why, x.written = .error why ∧ p.failure = some why) ∧
    (signals.count = 0 ∨ taken.length < signals.after)
  /-- A batch is cancelled where the interrupts come. -/
  cancelled : p.cancelled = true → refused = none ∧ signals.count ≠ 0 ∧ taken.length = signals.after
  /-- A batch that is not cancelled is taken whole, unless the extraction has failed. -/
  complete : p.cancelled = false → p.failure = none →
    taken = results ∧ (signals.count = 0 ∨ results.length < signals.after)

section Lines

variable {signals : Interrupts} {stored : Bool} {results taken : List Yielded}
  {refused : Option Yielded} {p : Progress}

theorem Agrees.refused_eq_none (h : p.Agrees signals stored results taken refused)
    (hfailure : p.failure = none) : refused = none := by
  refine Option.eq_none_iff_forall_ne_some.mpr fun x hx => ?_
  obtain ⟨-, ⟨why, -, hwhy⟩, -⟩ := h.refusal x hx
  rw [hfailure] at hwhy
  cases hwhy

theorem Agrees.length_lines_iff (h : p.Agrees signals stored results taken refused) :
    p.lines.length = p.stats.processed + p.stats.failed ↔ refused = none := by
  rw [h.length]
  cases refused <;> simp

theorem Agrees.lines_eq_iff (h : p.Agrees signals stored results taken refused)
    {yields : List Yielded} (hbefore : taken ++ refused.toList <+: yields)
    (hwhole : refused = none → taken = yields) :
    p.lines = (yields.map (·.result)).map line ↔ refused = none := by
  constructor
  · intro hlines
    have hlength : taken.length = yields.length := by
      have hcount := congrArg List.length hlines
      rwa [h.lines, List.length_map, List.length_map, List.length_map, List.length_map] at hcount
    have hle := hbefore.length_le
    cases refused with
    | none => rfl
    | some x =>
      rw [Option.toList_some, List.length_append, List.length_singleton] at hle
      omega
  · intro hnone
    rw [h.lines, hwhole hnone]

end Lines

section Counts

variable {signals : Interrupts} {stored : Bool} {db : Graph.Database String}
  {results taken : List Yielded} {refused : Option Yielded} {p : Progress}
  (h : p.HasTaken signals stored db taken refused)

include h

theorem HasTaken.not_isText {x : Yielded} (hx : x ∈ refused) : ¬ x.IsText := by
  obtain ⟨⟨why, hwritten, -⟩, -⟩ := h.refusal x hx
  intro htext
  rw [htext.written_eq] at hwritten
  cases hwritten

theorem HasTaken.agrees (hwait : p.Awaits signals taken)
    (hbefore : taken ++ refused.toList <+: results)
    (hall : p.isStopped = false → taken = results) :
    p.Agrees signals stored results taken refused := by
  obtain ⟨hprocessed, hfailed⟩ := stats_ofResults ((taken ++ refused.toList).map (·.result))
  refine { isPrefix := hbefore, texts := h.texts, lines := h.lines, unbroken := fun l hl c hc => ?_
           stats := h.stats, length := ?_, errors := ?_, stored := h.stored
           refusal := fun x hx => ⟨h.not_isText hx, h.refusal x hx⟩, cancelled := h.cancelled
           complete := fun hcancelled hfailure => ?_ }
  · rw [h.lines] at hl
    obtain ⟨r, -, rfl⟩ := List.mem_map.mp hl
    exact r.isPlain_toValue.not_isBreak 0 c hc
  · rw [h.stats, hprocessed, hfailed, ← length_eq_countP, h.lines, List.length_map,
      List.length_map, List.length_map, List.length_append]
  · rw [h.stats, hfailed, h.lines, countP_isErrorLine, List.map_append, List.countP_append]
    exact congrArg _ List.countP_map
  · have hgo : p.isStopped = false := isStopped_eq_false.mpr ⟨hcancelled, hfailure⟩
    obtain rfl := hall hgo
    exact ⟨rfl, hwait hgo⟩

theorem HasTaken.total_eq (hfailure : p.failure = none ∨ db.FailsAsDatabase) :
    ∀ s ∈ p.ingestion, s.total = p.lines.length := by
  rw [h.lines, List.length_map, List.length_map]
  rcases h.counted with hcounted | ⟨why, hwhy, hof, hmem⟩
  · exact hcounted
  · rcases hfailure with hnone | honly
    · rw [hnone] at hwhy
      cases hwhy
    · rw [honly why hmem] at hof
      cases hof

theorem HasTaken.failure_eq_none (honly : db.FailsAsDatabase) (hcount : signals.count ≤ 1)
    (hrefused : refused = none) : p.failure = none := by
  refine Option.eq_none_iff_forall_ne_some.mpr fun why hwhy => ?_
  rcases h.failure why hwhy with htwo | ⟨hof, hmem⟩ | hsome
  · omega
  · rw [honly why hmem] at hof
    cases hof
  · rw [hrefused] at hsome
    cases hsome

end Counts

end Progress

theorem hasTaken_initial (signals : Interrupts) (stored : Bool) (db : Graph.Database String) :
    (Progress.initial stored db).HasTaken signals stored db [] none where
  stats := rfl
  texts := nofun
  lines := rfl
  stored := by cases stored <;> rfl
  script _ h := h
  counted := by
    refine .inl ?_
    cases stored with
    | false => exact nofun
    | true =>
      rintro s ⟨⟩
      rfl
  failure := nofun
  refusal := nofun
  cancelled := nofun

section Extract

variable (tries : ℕ) (signals : Interrupts) (stored : Bool) (db : Graph.Database String)
  (workers : ℤ) (results : List Yielded)

theorem exists_extract_agrees : ∃ taken refused,
    (extract tries signals stored db workers results).Agrees signals stored results taken refused ∧
    ((extract tries signals stored db workers results).failure = none ∨ db.FailsAsDatabase →
      ∀ s ∈ (extract tries signals stored db workers results).ingestion,
        s.total = (extract tries signals stored db workers results).lines.length) ∧
    (db.FailsAsDatabase → signals.count ≤ 1 → 0 < workers → refused = none →
      (extract tries signals stored db workers results).failure = none) := by
  have hstart := (hasTaken_initial signals stored db).ask
  have hwait : ((Progress.initial stored db).ask signals).Awaits signals [] :=
    (hasTaken_initial signals stored db).ask_awaits (.inr (Nat.zero_le _))
  rw [extract]
  cases hgo : ((Progress.initial stored db).ask signals).isStopped with
  | true =>
    rw [if_pos rfl]
    refine ⟨[], none, hstart.agrees hwait List.nil_prefix fun hrunning => ?_, hstart.total_eq,
      fun honly hcount _ => hstart.failure_eq_none honly hcount⟩
    rw [hgo] at hrunning
    cases hrunning
  | false =>
    rw [if_neg Bool.false_ne_true]
    cases hworkers : Batch.workers workers with
    | ok n =>
      obtain ⟨taken, refused, hbefore, htaken, hwaits, hall⟩ :=
        hstart.exists_consume hwait results
      exact ⟨taken, refused, htaken.agrees hwaits hbefore hall, htaken.total_eq,
        fun honly hcount _ => htaken.failure_eq_none honly hcount⟩
    | error why =>
      have hnone := (Progress.isStopped_eq_false.mp hgo).2
      have hagrees : ((Progress.initial stored db).ask signals).Agrees signals stored [] [] none :=
        hstart.agrees hwait List.nil_prefix fun _ => rfl
      refine ⟨[], none,
        { hagrees with isPrefix := List.nil_prefix, refusal := nofun, complete := nofun },
        fun _ => hstart.total_eq (.inl hnone), fun _ _ hpos => ?_⟩
      rw [Batch.workers, if_neg (by omega)] at hworkers
      cases hworkers

end Extract

end Run

end CodeAtlas
