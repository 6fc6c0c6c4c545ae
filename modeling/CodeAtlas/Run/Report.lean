import CodeAtlas.Data.Json.Printer
import CodeAtlas.Files.Write
import CodeAtlas.Graph.Ingest
import CodeAtlas.Model.Stats

/-! # Run reports

A run ends with a report: a file of its own in a directory of reports, named for the run. It says
what the run was asked to do and what came of it.
-/

namespace CodeAtlas.Run

structure Work where
  extraction : ExtractionStats String
  ingestion : Option Graph.IngestionStats
  cancelled : Bool

/-- What a run was asked to do and what came of it; there is no work without sources. -/
structure Report where
  runId : String
  source : String
  outputFile : String
  strict : Bool
  tolerant : Bool
  workers : Int
  discovered : Nat
  work : Option Work

/-- The number of files that there are results for. -/
def Work.handled (w : Work) : Nat := w.extraction.processed + w.extraction.failed

/-- The outcome of the work. A cancelled batch is no full success. -/
def Work.status (w : Work) : String :=
  let status := finalStatus w.handled w.extraction.failed
  if w.cancelled && status == "success" then "partial_success" else status

def Report.status (r : Report) : String := (r.work.map Work.status).getD "success"

/-- The entries of a report about the work, which took a number of milliseconds. -/
def Work.entries (elapsed : Nat) (w : Work) : Result (List (String × Value)) := do
  let extraction ← w.extraction.toValue
  return [("elapsed_s", .float (Binary64.ofDecimal false elapsed (-3))),
    ("extraction", extraction)] ++
    (w.ingestion.map fun s => ("graph_ingestion", s.toValue)).toList ++
    [("cancelled", .bool w.cancelled)]

def Report.entries (elapsed : Nat) (r : Report) : Result (List (String × Value)) := do
  let work ← match r.work with
    | some w => w.entries elapsed
    | none => .ok []
  return [("run_id", .text r.runId), ("pipeline", .text "extraction"), ("source", .text r.source),
    ("output_file", .text r.outputFile), ("strict_config", .bool r.strict),
    ("allow_syntax_errors", .bool r.tolerant), ("status", .text r.status),
    ("max_workers", .int r.workers), ("files_discovered", .int r.discovered)] ++ work

def failureEntries (runId : String) (why : Failure) : List (String × Value) :=
  [("run_id", .text runId), ("status", .text "failed")] ++
    match why with
    | .interrupted => [("error", .text "aborted by user"), ("aborted", .bool true)]
    | why => [("error", .text why.message)]

def supply (key : String) (v : Value) (entries : List (Scalar × Value)) : List (Scalar × Value) :=
  if (Value.lookup entries (.text key)).isSome then entries else entries ++ [(.text key, v)]

/-- Writes a report into a directory, which is made if need be. Gives the path of the file. -/
def writeReport (fs : Files) (directory runId now : String) (entries : List (Scalar × Value)) :
    Result (Files × String) := do
  let fs ← fs.ensureDirectory directory
  let entries := supply "timestamp_utc" (.text now) (supply "run_id" (.text runId) entries)
  let path := Path.join directory (runId ++ ".json")
  match fs.write path (Json.print .report (.map entries)).toUTF8 with
  | .ok fs => return (fs, path)
  | .error fault => throw (.path path fault)

end CodeAtlas.Run
