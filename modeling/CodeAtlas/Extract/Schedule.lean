import CodeAtlas.Extract.Batch

/-! # Schedules of a batch

The files of a batch are worked on side by side and finish in any order. The batch submits files
while fewer than twice its workers are in flight, waits until some of them are done, and yields
their results one by one. A schedule lists what happens: the moves of the batch itself, the ends of
the work on files, and the cancellation. A look at the cancellation and what the batch does upon it
are one move.
-/

namespace CodeAtlas.Batch

structure Plan where
  files : Files
  work : Worker
  paths : List String
  workers : Nat
  workers_pos : 0 < workers

namespace Plan

/-- An occurrence of a path in the batch. -/
abbrev Job (plan : Plan) := Fin plan.paths.length

def jobs (plan : Plan) : List plan.Job := List.finRange plan.paths.length

/-- The number of files that may be in flight. -/
def limit (plan : Plan) : Nat := plan.workers * 2

def result (plan : Plan) (i : plan.Job) : FileResult String :=
  resultOf plan.files plan.work plan.paths[i]

end Plan

inductive Phase where
  /-- Submit files, or stop. -/
  | filling
  /-- Wait until files in flight are done. -/
  | waiting
  /-- Take the files that were done. -/
  | taking
  | ended
  deriving DecidableEq, Repr

structure State (plan : Plan) where
  phase : Phase
  /-- The number of files that were submitted. -/
  next : Nat
  inFlight : List plan.Job
  /-- The files that the workers are done with. -/
  completed : List plan.Job
  /-- The files still to be taken after the last wait. -/
  done : List plan.Job
  yielded : List (plan.Job × FileResult String)
  cancelled : Bool

inductive Event (plan : Plan) where
  | submit
  | finish
  | abandon
  | block
  | wake (done : List plan.Job)
  | take (i : plan.Job)
  | resume
  | complete (i : plan.Job)
  | cancel

namespace State

variable {plan : Plan}

def initial (plan : Plan) : State plan := ⟨.filling, 0, [], [], [], [], false⟩

/-- No file is left to submit or to wait for. -/
def IsEmpty (s : State plan) : Prop := plan.paths.length ≤ s.next ∧ s.inFlight = []

/-- A further file may be submitted. -/
def HasRoom (s : State plan) : Prop := s.next < plan.paths.length ∧ s.inFlight.length < plan.limit

def results (s : State plan) : List (FileResult String) := s.yielded.map (·.2)

def report (s : State plan) : Result Value := (ExtractionStats.ofResults s.results).toValue

/-- The batch came to its end and was not cancelled. -/
def Finished (s : State plan) : Prop := s.phase = .ended ∧ s.cancelled = false

/-- An event can happen now. -/
def Enabled (s : State plan) : Event plan → Prop
  | .submit => s.phase = .filling ∧ s.HasRoom ∧ s.cancelled = false
  | .finish => s.phase = .filling ∧ s.IsEmpty
  | .abandon => s.phase = .filling ∧ ¬s.IsEmpty ∧ s.cancelled = true
  | .block => s.phase = .filling ∧ ¬s.IsEmpty ∧ ¬s.HasRoom ∧ s.cancelled = false
  | .wake done =>
    s.phase = .waiting ∧ done ≠ [] ∧ done.Nodup ∧ ∀ i ∈ done, i ∈ s.inFlight ∧ i ∈ s.completed
  | .take i => s.phase = .taking ∧ s.done.head? = some i
  | .resume => s.phase = .taking ∧ s.done = []
  | .complete i => i ∈ s.inFlight ∧ i ∉ s.completed
  | .cancel => s.cancelled = false

instance (s : State plan) : Decidable s.IsEmpty := inferInstanceAs (Decidable (_ ∧ _))

instance (s : State plan) : Decidable s.HasRoom := inferInstanceAs (Decidable (_ ∧ _))

instance (s : State plan) : DecidablePred s.Enabled := fun e => by
  cases e <;> dsimp only [Enabled] <;> infer_instance

def after (s : State plan) : Event plan → State plan
  | .submit => { s with next := s.next + 1, inFlight := s.inFlight ++ plan.jobs[s.next]?.toList }
  | .finish | .abandon => { s with phase := .ended }
  | .block => { s with phase := .waiting }
  | .wake done => { s with phase := .taking, done := done }
  | .take i =>
    { s with
      done := s.done.tail
      inFlight := s.inFlight.erase i
      yielded := if s.cancelled then s.yielded else s.yielded ++ [(i, plan.result i)] }
  | .resume => { s with phase := .filling }
  | .complete i => { s with completed := i :: s.completed }
  | .cancel => { s with cancelled := true }

/-- The state after a schedule, if each of its events can happen when its turn comes. -/
def run (s : State plan) : List (Event plan) → Option (State plan)
  | [] => some s
  | e :: es => if s.Enabled e then (s.after e).run es else none

end State

end CodeAtlas.Batch
