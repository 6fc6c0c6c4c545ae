import CodeAtlas.Command.Arguments
import CodeAtlas.Config.VocabularyFile
import CodeAtlas.Files.Discovery
import CodeAtlas.Graph.Connect
import CodeAtlas.Run.Extraction
import CodeAtlas.Run.Report

/-! # Runs

A run finds its sources, extracts them into the output file, and reports. What stops it is in its
report; only a report that cannot be written is a failure of the program itself.
-/

namespace CodeAtlas.Run

open Command

structure Circumstances where
  environment : Environment
  parser : Extract.Parser
  reader : Config.Reader
  runId : String
  now : String
  /-- The number of workers if nothing gives one. -/
  workers : Int
  /-- How often a transaction is tried. -/
  tries : Nat
  interrupts : Interrupts
  /-- The sources below a directory whose paths are no texts. -/
  strays : String → List Stray
  /-- The order in which the results of a batch arrive. -/
  arrival : List Yielded → List Yielded
  /-- How the connection to the graph is made, once it is known where it is. -/
  connect : Result Connection → Graph.Action String Unit

structure State where
  files : Files
  database : Graph.Database String
  warnings : List String

abbrev Step := ExceptT Failure (StateM State)

namespace Step

variable {β : Type}

def ofResult (r : Result β) : Step β := ExceptT.mk (pure r)

def ofWarned (w : Warned β) : Step β := do
  let (r, warnings) := w.outcome
  modify fun s => { s with warnings := s.warnings ++ warnings }
  ofResult r

def ofAction (x : Graph.Action String β) : Step β := do
  let (r, db) := x.outcome (← get).database
  modify fun s => { s with database := db }
  ofResult r

def change (f : Files → Result Files) : Step Unit := do
  let fs ← ofResult (f (← get).files)
  modify fun s => { s with files := fs }

end Step

def pathOf : Option String → Result String
  | some path => .ok path
  | none => .error (.wrongType "expected str, bytes or os.PathLike object, not NoneType")

def filled? (text : Option String) : Option String := text.filter (· ≠ "")

/-- The path of the file or directory that a run is about. -/
def targetPath (a : Arguments) : Result String :=
  match filled? a.file with
  | some path => .ok path
  | none => pathOf a.sourceDirectory

/-- The number of workers: zero on the command line is as good as none. -/
def workersOf (c : Circumstances) : Option Int → Warned Int
  | some n => if n = 0 then c.environment.workers c.workers else return n
  | none => c.environment.workers c.workers

def vocabularyOf (c : Circumstances) (fs : Files) (a : Arguments) : Warned Vocabulary :=
  match filled? a.vocabulary with
  | some path => Vocabulary.load c.reader fs path a.strict
  | none => return .standard

def sources (fs : Files) (a : Arguments) : Result (List String) :=
  match filled? a.file with
  | some path =>
    let path := fs.absolute path
    if fs.isFile path then .ok [path] else .error (.noFile path)
  | none => do Discovery.sources fs (← pathOf a.sourceDirectory)

/-- What a run finds besides: a single file is a text. -/
def strays (c : Circumstances) (fs : Files) (a : Arguments) : List Stray :=
  match filled? a.file with
  | some _ => []
  | none => (a.sourceDirectory.toList.map fs.absolute).flatMap c.strays

/-- The sources of a run in the order of their paths. -/
def targets (c : Circumstances) (fs : Files) (a : Arguments) : Result (List Target) := do
  let paths ← sources fs a
  return (paths.map Target.file ++ (strays c fs a).map Target.stray).mergeSort
    fun t t' => t.path.precedes t'.path

def compositionPath : String := "docker-compose.yml"

def connectGraph (c : Circumstances) : Step Unit := do
  let (connection, warnings) :=
    (Connection.resolve c.reader c.environment (← get).files compositionPath none).outcome
  modify fun s => { s with warnings := s.warnings ++ warnings }
  Step.ofAction (c.connect connection)
  Step.ofAction (Graph.prepare none)

/-- Empties the output file, which is made if need be, and extracts the sources into it. -/
def extractTo (c : Circumstances) (a : Arguments) (v : Vocabulary) (workers : Int)
    (targets : List Target) : Step Progress := do
  let output := a.outputFile
  Step.change fun fs => fs.ensureDirectory (Path.parent (fs.absolute output))
  let write (text : String) : Step Unit := Step.change fun fs =>
    match fs.write output text.toUTF8 with
    | .ok fs => .ok fs
    | .error fault => .error (.path output fault)
  write ""
  let s ← get
  let results := c.arrival (targets.map (Target.yielded c.parser s.files v a.tolerant))
  let p := extract c.tries c.interrupts a.ingest s.database workers results
  modify fun s => { s with database := p.database }
  write p.text
  match p.failure with
  | some why => throw why
  | none => return p

/-- The work of a run on its sources. The connection to the graph is closed whatever happens. -/
def work (c : Circumstances) (a : Arguments) (v : Vocabulary) (workers : Int)
    (targets : List Target) : Step Work := do
  if a.ingest then connectGraph c
  let close : Step Unit := if a.ingest then Step.ofAction Graph.disconnect else return
  let p ← tryCatch (extractTo c a v workers targets) fun why => do
    close
    throw why
  close
  return ⟨p.stats, p.ingestion, p.cancelled⟩

def run (c : Circumstances) (a : Arguments) : Step Report := do
  let fs := (← get).files
  let source := fs.absolute (← Step.ofResult (targetPath a))
  let v ← Step.ofWarned (vocabularyOf c fs a)
  let workers ← Step.ofWarned (workersOf c a.workers)
  let targets ← Step.ofResult (targets c fs a)
  let work ← if targets.isEmpty then pure none else some <$> work c a v workers targets
  return ⟨c.runId, source, fs.absolute a.outputFile, a.strict, a.tolerant, workers, targets.length,
    work⟩

inductive Ending where
  /-- It is not run, because of its command line. -/
  | stopped (why : Stop)
  | finished (report : Report)
  | failed (why : Failure)
  /-- The report could not be written. -/
  | unreported (why : Failure)

def Ending.status : Ending → Nat
  | .stopped .help | .finished _ => 0
  | .stopped (.usage _) => 2
  | .failed .interrupted => 130
  | .failed _ => 1
  | .unreported _ => 1

/-- The report of what came of a run that took a number of milliseconds, and how the program ends
with it. -/
def conclude (c : Circumstances) (elapsed : Nat) (a : Arguments) (outcome : Result Report)
    (s : State) : Ending × State :=
  let reported : Result (Ending × Files) := do
    let (ending, entries) ← match outcome with
      | .ok report => do pure (Ending.finished report, ← report.entries elapsed)
      | .error why => pure (Ending.failed why, failureEntries c.runId why)
    let (fs, _) ← writeReport s.files a.reportDirectory c.runId c.now
      (entries.map fun (k, v) => (.text k, v))
    return (ending, fs)
  match reported with
  | .ok (ending, fs) => (ending, { s with files := fs })
  | .error why => (.unreported why, s)

/-- Runs a command line, where the run takes a number of milliseconds. -/
def program (c : Circumstances) (elapsed : Nat) (words : List String) (s : State) :
    Ending × State :=
  match Arguments.ofWords c.environment words with
  | .error why => (.stopped why, s)
  | .ok a =>
    let (outcome, s) := (run c a).run.run s
    conclude c elapsed a outcome s

end CodeAtlas.Run
