import Mathlib.Data.List.Nodup
import CodeAtlas.Extract.Schedule
import CodeAtlas.Java.Grammar
import CodeAtlas.Proofs.Model.Statistics

/-! # What every schedule of a batch has in common

Whatever the order in which files finish, a batch keeps account of them: each file that was
submitted is in flight, was yielded once, or was dropped after the cancellation. So a batch that
comes to its end uncancelled has yielded one result for each of its paths, and what is reported of
it does not depend on its schedule. No schedule goes on forever, and none gets stuck.
-/

namespace CodeAtlas

namespace Batch

variable {plan : Plan}

namespace State

variable {s t u : State plan} {e : Event plan} {es : List (Event plan)}

@[simp] theorem run_nil : s.run [] = some t ↔ s = t := by simp [run]

theorem run_cons : s.run (e :: es) = some t ↔ s.Enabled e ∧ (s.after e).run es = some t := by
  simp [run]

/-- What every event preserves, every schedule preserves. -/
theorem run_induction {P : State plan → Prop} (hstep : ∀ s e, s.Enabled e → P s → P (s.after e))
    (h : s.run es = some t) (hs : P s) : P t := by
  induction es generalizing s with
  | nil => exact run_nil.mp h ▸ hs
  | cons e es ih =>
    obtain ⟨he, h⟩ := run_cons.mp h
    exact ih h (hstep s e he hs)

/-- The files that a batch has to account for, and where they are. -/
structure Accounted (s : State plan) : Prop where
  room : s.inFlight.length ≤ plan.limit
  jobs : ∃ dropped, (s.inFlight ++ (s.yielded.map (·.1) ++ dropped)).Perm
    (plan.jobs.take s.next) ∧ (s.cancelled = false → dropped = [])
  results : ∀ y ∈ s.yielded, y.2 = plan.result y.1
  done_nodup : s.done.Nodup
  done_inFlight : s.done ⊆ s.inFlight
  waiting : s.phase = .waiting → s.inFlight ≠ []
  ended : s.Finished → s.IsEmpty

theorem accounted_initial (plan : Plan) : (initial plan).Accounted where
  room := Nat.zero_le _
  jobs := ⟨[], .refl _, fun _ => rfl⟩
  results y hy := absurd hy List.not_mem_nil
  done_nodup := .nil
  done_inFlight := List.nil_subset _
  waiting h := by simp [initial] at h
  ended h := by simp [initial, Finished] at h

theorem nodup_jobs (plan : Plan) : plan.jobs.Nodup := List.nodup_finRange _

theorem Accounted.nodup (h : s.Accounted) : (s.inFlight ++ s.yielded.map (·.1)).Nodup := by
  obtain ⟨dropped, hperm, -⟩ := h.jobs
  have hnodup := hperm.nodup_iff.mpr ((nodup_jobs plan).sublist (List.take_sublist ..))
  rw [← List.append_assoc] at hnodup
  exact (List.nodup_append'.mp hnodup).1

theorem length_submitted_le (s : State plan) : plan.jobs[s.next]?.toList.length ≤ 1 := by
  cases plan.jobs[s.next]? <;> simp

theorem submit_accounted (h : s.Accounted) (he : s.Enabled .submit) :
    (s.after .submit).Accounted := by
  obtain ⟨hphase, ⟨hnext, hroom⟩, hc⟩ := he
  obtain ⟨dropped, hperm, hdropped⟩ := h.jobs
  refine { h with
    room := ?_, jobs := ⟨dropped, ?_, hdropped⟩, done_inFlight := ?_, waiting := ?_, ended := ?_ }
  · have := s.length_submitted_le
    simp only [after, List.length_append]
    omega
  · simp only [after]
    rw [List.take_add_one, List.append_assoc]
    refine .trans (.append_left _ List.perm_append_comm) ?_
    rw [← List.append_assoc]
    exact hperm.append_right _
  · exact List.Subset.trans h.done_inFlight (List.subset_append_left ..)
  · exact fun hw => absurd (hphase.symm.trans hw) (by simp)
  · exact fun ho => absurd (hphase.symm.trans ho.1) (by simp)

theorem take_accounted {i : plan.Job} (h : s.Accounted) (he : s.Enabled (.take i)) :
    (s.after (.take i)).Accounted := by
  obtain ⟨hphase, hhead⟩ := he
  obtain ⟨dropped, hperm, hdropped⟩ := h.jobs
  obtain ⟨rest, hdone⟩ : ∃ rest, s.done = i :: rest := List.head?_eq_some_iff.mp hhead
  have hi : i ∈ s.inFlight := h.done_inFlight (by simp [hdone])
  have hnodup := h.done_nodup
  rw [hdone, List.nodup_cons] at hnodup
  -- The job leaves those in flight, to be yielded or, once the run is cancelled, dropped.
  have hmove : (s.inFlight ++ (s.yielded.map (·.1) ++ dropped)).Perm
      (s.inFlight.erase i ++ (s.yielded.map (·.1) ++ i :: dropped)) := by
    refine ((List.perm_cons_erase hi).append_right _).trans ?_
    rw [← List.append_assoc, ← List.append_assoc]
    exact List.perm_middle.symm
  refine { h with
    room := ?_, jobs := ?_, results := ?_, done_nodup := ?_, done_inFlight := ?_, waiting := ?_
    ended := ?_ }
  · exact (List.length_erase_le ..).trans h.room
  · cases hc : s.cancelled with
    | true =>
      exact ⟨i :: dropped, by simpa [after, hc] using hmove.symm.trans hperm, by simp [after, hc]⟩
    | false =>
      obtain rfl := hdropped hc
      exact ⟨[], by simpa [after, hc] using hmove.symm.trans hperm, fun _ => rfl⟩
  · intro y hy
    cases hc : s.cancelled with
    | true => exact h.results y (by simpa [after, hc] using hy)
    | false =>
      simp only [after, hc, Bool.false_eq_true, if_false, List.mem_append, List.mem_singleton] at hy
      rcases hy with hy | rfl
      · exact h.results y hy
      · rfl
  · simpa [after, hdone] using hnodup.2
  · intro j hj
    have hj : j ∈ rest := by simpa [after, hdone] using hj
    have hne : j ≠ i := fun hji => hnodup.1 (hji ▸ hj)
    exact (List.mem_erase_of_ne hne).mpr (h.done_inFlight (by simp [hdone, hj]))
  · exact fun hw => absurd (hphase.symm.trans hw) (by simp)
  · exact fun ho => absurd (hphase.symm.trans ho.1) (by simp)

theorem inFlight_ne_nil (h : ¬s.IsEmpty) (h' : ¬s.HasRoom) : s.inFlight ≠ [] := by
  have hlimit : 0 < plan.limit := Nat.mul_pos plan.workers_pos Nat.two_pos
  intro hnil
  simp only [IsEmpty, HasRoom, hnil, List.length_nil, and_true] at h h'
  omega

theorem after_accounted (s : State plan) (e : Event plan) (he : s.Enabled e) (h : s.Accounted) :
    (s.after e).Accounted := by
  cases e with
  | submit => exact submit_accounted h he
  | take i => exact take_accounted h he
  | finish => exact { h with ended := fun _ => he.2, waiting := fun hw => nomatch hw }
  | abandon =>
    exact { h with
      waiting := fun hw => nomatch hw
      ended := fun ho => absurd (he.2.2.symm.trans ho.2) (by simp) }
  | block =>
    exact { h with
      waiting := fun _ => inFlight_ne_nil he.2.1 he.2.2.1
      ended := fun ho => nomatch ho.1 }
  | wake done =>
    obtain ⟨-, -, hnodup, hmem⟩ := he
    exact { h with
      done_nodup := hnodup
      done_inFlight := fun i hi => (hmem i hi).1
      waiting := fun hw => nomatch hw
      ended := fun ho => nomatch ho.1 }
  | resume =>
    exact { h with
      waiting := fun hw => nomatch hw
      ended := fun ho => nomatch ho.1 }
  | complete i => exact { h with }
  | cancel =>
    obtain ⟨dropped, hperm, -⟩ := h.jobs
    exact { h with
      jobs := ⟨dropped, hperm, fun hc => nomatch hc⟩
      ended := fun ho => nomatch ho.2 }

theorem accounted_of_run (h : (initial plan).run es = some s) : s.Accounted :=
  run_induction after_accounted h (accounted_initial plan)

theorem Accounted.results_eq (h : s.Accounted) :
    s.results = (s.yielded.map (·.1)).map plan.result := by
  rw [State.results, List.map_map]
  exact List.map_congr_left fun y hy => h.results y hy

theorem IsEmpty.take_jobs (h : s.IsEmpty) : plan.jobs.take s.next = plan.jobs :=
  List.take_of_length_le (by simpa [Plan.jobs] using h.1)

theorem Accounted.jobs_perm (h : s.Accounted) (hs : s.Finished) :
    (s.yielded.map (·.1)).Perm plan.jobs := by
  obtain ⟨dropped, hperm, hdropped⟩ := h.jobs
  have hempty := h.ended hs
  rw [hdropped hs.2, hempty.2, hempty.take_jobs] at hperm
  simpa using hperm

/-- The files in flight that the workers are not done with. -/
def pending (s : State plan) : List plan.Job :=
  s.inFlight.filter fun i => !s.completed.contains i

/-- What is left to do before the next file is taken. -/
def rank (s : State plan) : ℕ :=
  match s.phase, s.done with
  | .taking, [] => 4
  | .filling, _ => 3
  | .waiting, _ => 2
  | .taking, _ :: _ => 1
  | .ended, _ => 0

/-- A bound on what may still happen. -/
def remaining (s : State plan) : ℕ :=
  6 * (plan.paths.length - s.next) + 4 * s.inFlight.length + s.pending.length + s.rank +
    (!s.cancelled).toNat

end State

/-- The work on a file depends on the absolute form of its path only, which its result records. -/
structure RecordsPath (fs : Files) (work : Worker) : Prop where
  same : ∀ p q, fs.absolute p = fs.absolute q → work p = work q
  path : ∀ p r, work p = .ok r → r.path = fs.absolute p

namespace RecordsPath

variable {fs : Files} {work : Worker} (h : RecordsPath fs work)

include h

theorem path_resultOf (p : String) : (resultOf fs work p).path = fs.absolute p := by
  unfold resultOf
  split
  · next r hr => exact h.path p r hr
  · rfl

theorem resultOf_congr {p q : String} (hpq : fs.absolute p = fs.absolute q) :
    resultOf fs work p = resultOf fs work q := by
  rw [resultOf, resultOf, h.same p q hpq, hpq]

end RecordsPath

theorem recordsPath_processFile (parser : Extract.Parser) (fs : Files) (v : Vocabulary)
    (tolerant : Bool) :
    RecordsPath fs fun p => .ok (Extract.processFile parser fs v tolerant p) where
  same p q h := by simp only [Extract.processFile, h]
  path p r h := by
    obtain rfl := Except.ok.inj h
    exact Extract.path_ofParse ..

def Plan.twice : Plan where
  files := ⟨"/srv", .directory []⟩
  work p := .ok (Extract.processFile Java.tree ⟨"/srv", .directory []⟩ .standard false p)
  paths := ["A.java", "./A.java"]
  workers := 1
  workers_pos := Nat.one_pos

/-- Both are submitted, and the second one is done first. -/
def Plan.overtaking : List (Event .twice) :=
  let first : Plan.twice.Job := ⟨0, Nat.two_pos⟩
  let second : Plan.twice.Job := ⟨1, Nat.one_lt_two⟩
  [.submit, .submit, .block, .complete second, .wake [second], .take second, .resume, .block,
    .complete first, .wake [first], .take first, .resume, .finish]

end Batch

end CodeAtlas
