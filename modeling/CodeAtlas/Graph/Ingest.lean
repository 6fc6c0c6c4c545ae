import CodeAtlas.Graph.Database

/-! # Storing file results

Each file result is stored in one transaction that replaces what was stored of the file before.
-/

namespace CodeAtlas.Graph

variable {α : Type} [Cell α]

structure IngestionStats where
  files : Nat
  errorFiles : Nat
  nodes : Nat
  relationships : Nat
  /-- The results that could not be stored. -/
  writeErrors : Nat
  deriving DecidableEq, Repr

namespace IngestionStats

def empty : IngestionStats := ⟨0, 0, 0, 0, 0⟩

def record (s : IngestionStats) (r : FileResult α) (p : Payload α) : IngestionStats :=
  let s := { s with
    nodes := s.nodes + p.nodeCount, relationships := s.relationships + p.relationshipCount }
  match r with
  | .extracted _ => { s with files := s.files + 1 }
  | .failed .. => { s with errorFiles := s.errorFiles + 1 }

def recordError (s : IngestionStats) : IngestionStats := { s with writeErrors := s.writeErrors + 1 }

def toValue (s : IngestionStats) : Value :=
  .ofFields [("files_written", .int s.files), ("error_files_written", .int s.errorFiles),
    ("nodes_written", .int s.nodes), ("relationships_written", .int s.relationships),
    ("write_errors", .int s.writeErrors)]

def summary (s : IngestionStats) : String :=
  s!"GraphIngestionStats(files={s.files}, error_files={s.errorFiles}, nodes={s.nodes}, " ++
    s!"relationships={s.relationships}, errors={s.writeErrors})"

end IngestionStats

/-- Runs statements as one transaction in a session of its own, and again if need be. -/
def commit (database : Option String) (statements : List (Statement α))
    (tries : Nat := attempts) : Action α Unit :=
  persistently (Action.inSession database (Action.transaction statements)) tries

def ingest (database : Option String) (s : IngestionStats) (r : FileResult α)
    (tries : Nat := attempts) : Action α IngestionStats := do
  let p ← Action.ofResult (Payload.ofResult r)
  commit database p.statements tries
  return s.record r p

/-- Stores a file result, and counts it if the database fails to store it. -/
def ingestOrCount (database : Option String) (s : IngestionStats) (r : FileResult α)
    (tries : Nat := attempts) : Action α IngestionStats :=
  tryCatch (ingest database s r tries) fun why =>
    if why.isOfDatabase then return s.recordError else throw why

def ingestAll (database : Option String) (rs : List (FileResult α)) (tries : Nat := attempts) :
    Action α IngestionStats :=
  rs.foldlM (fun s r => ingestOrCount database s r tries) .empty

def remove (database : Option String) (path : α) (tries : Nat := attempts) : Action α Unit :=
  commit database (Statement.removal path) tries

def prepare (database : Option String) : Action α Unit :=
  Action.inSession database (Statement.preparation.forM Action.execute)

end CodeAtlas.Graph
