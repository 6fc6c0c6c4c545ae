import CodeAtlas.Graph.Ingest
import CodeAtlas.Run.Interrupt
import CodeAtlas.Run.Target

/-! # Extraction to a file of lines

The results of a batch are taken one by one, as they arrive. Each becomes a line of the output
file, and is stored in the graph if there is one. A result that the graph fails to store is
counted there and keeps its line. A result whose path is no text has no line, and the extraction
fails with it.
-/

namespace CodeAtlas.Run

structure Progress where
  stats : ExtractionStats String
  lines : List String
  /-- What was stored, if results are stored at all. -/
  ingestion : Option Graph.IngestionStats
  database : Graph.Database String
  cancelled : Bool
  /-- What ended the extraction early. -/
  failure : Option Failure

namespace Progress

def initial (stored : Bool) (db : Graph.Database String) : Progress :=
  ⟨.empty, [], if stored then some .empty else none, db, false, none⟩

/-- No further result is asked for. -/
def isStopped (p : Progress) : Bool := p.cancelled || p.failure.isSome

def line (r : FileResult String) : String := Json.print .line r.toValue

def store (tries : Nat) (p : Progress) (r : FileResult String) : Progress :=
  match p.ingestion with
  | none => p
  | some s =>
    match (Graph.ingestOrCount none s r tries).outcome p.database with
    | (.ok s, db) => { p with ingestion := some s, database := db }
    | (.error why, db) => { p with failure := some why, database := db }

def ask (signals : Interrupts) (p : Progress) : Progress :=
  if p.isStopped || p.lines.length ≠ signals.after then p
  else
    let (cancelled, failure) := interruptTimes signals.count p.cancelled
    { p with cancelled := cancelled, failure := failure }

/-- Takes a result: it is counted, written, stored, and then the interrupts are seen to. -/
def take (tries : Nat) (signals : Interrupts) (p : Progress) (x : Yielded) : Progress :=
  let p := { p with stats := p.stats.record x.result }
  match x.written with
  | .ok l => ask signals ({ p with lines := p.lines ++ [l] }.store tries x.result)
  | .error why => { p with failure := some why }

def text (p : Progress) : String := String.join (p.lines.map (· ++ "\n"))

end Progress

/-- Takes the results of a batch in the order in which they arrive; there are none if the number
of workers is refused. -/
def extract (tries : Nat) (signals : Interrupts) (stored : Bool) (db : Graph.Database String)
    (workers : Int) (results : List Yielded) : Progress :=
  let p := (Progress.initial stored db).ask signals
  if p.isStopped then p
  else
    match Batch.workers workers with
    | .ok _ => Batch.consume Progress.isStopped (Progress.take tries signals) p results
    | .error why => { p with failure := some why }

end CodeAtlas.Run
