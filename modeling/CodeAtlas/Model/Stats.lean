import CodeAtlas.Data.Order
import CodeAtlas.Model.Wire

/-! # Extraction statistics

Counts over the file results of a run, and the failures among them.
-/

namespace CodeAtlas

variable {α : Type} [Cell α]

structure ExtractionStats (α : Type) where
  processed : Nat
  types : Nat
  methods : Nat
  stages : Nat
  parseErrors : Nat
  /-- Paths and reasons of the failures, in the order in which they were recorded. -/
  failures : List (α × String)
  deriving DecidableEq, Repr

namespace ExtractionStats

def empty : ExtractionStats α := ⟨0, 0, 0, 0, 0, []⟩

def failed (s : ExtractionStats α) : Nat := s.failures.length

def record (s : ExtractionStats α) : FileResult α → ExtractionStats α
  | .failed path reason => { s with failures := s.failures ++ [(path, reason)] }
  | .extracted e =>
    { s with
      processed := s.processed + 1
      types := s.types + e.types.length
      methods := s.methods + (e.types.flatMap (·.methods)).length
      stages := s.stages + e.stages.length
      parseErrors := s.parseErrors + e.parseErrorCount }

def ofResults (rs : List (FileResult α)) : ExtractionStats α := rs.foldl record empty

/-- The counts as a value, the failures sorted by path. -/
def toValue (s : ExtractionStats α) : Result Value := do
  let failures ← Value.sortOn (fun f => Cell.toValue f.1) s.failures
  return .ofFields [("files_processed", .int s.processed), ("files_failed", .int s.failed),
    ("types_extracted", .int s.types), ("methods_extracted", .int s.methods),
    ("stages_classified", .int s.stages), ("parse_errors", .int s.parseErrors),
    ("failures", .list (failures.map fun f => (FileResult.failed f.1 f.2).toValue))]

def summary (s : ExtractionStats α) : String :=
  s!"ExtractionStats(processed={s.processed}, failed={s.failed}, types={s.types}, " ++
    s!"methods={s.methods}, stages={s.stages})"

end ExtractionStats

/-- The outcome of a run over a number of files, some of which failed. -/
def finalStatus (total failed : Int) : String :=
  if 0 < total && total ≤ failed then "failed"
  else if 0 < failed then "partial_success"
  else "success"

end CodeAtlas
