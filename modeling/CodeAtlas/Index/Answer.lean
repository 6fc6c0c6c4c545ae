import CodeAtlas.Index.Search

/-! # Answers

An answer has its data and a report on them: whether anything was found, how much there is and how
much of it is shown.
-/

namespace CodeAtlas

inductive AnswerStatus where
  | ok
  | missingFile
  | missingEntity
  | emptyResult
  | truncated
  deriving DecidableEq, Repr

def AnswerStatus.name : AnswerStatus → String
  | .ok => "ok"
  | .missingFile => "missing_file"
  | .missingEntity => "missing_entity"
  | .emptyResult => "empty_result"
  | .truncated => "truncated"

structure AnswerReport where
  status : AnswerStatus
  reason : String
  total : Nat
  returned : Nat
  deriving DecidableEq, Repr

structure Answer where
  fields : List (String × Value)
  report : AnswerReport
  deriving DecidableEq, Repr

namespace AnswerReport

/-- A report with a status and a reason, where there is nothing to count. -/
def bare (status : AnswerStatus) (reason : String) : AnswerReport := ⟨status, reason, 0, 0⟩

def toValue (r : AnswerReport) : Value :=
  .ofFields [("status", .text r.status.name), ("reason", .text r.reason),
    ("total_count", .int r.total), ("returned_count", .int r.returned)]

end AnswerReport

def Answer.toValue (a : Answer) : Value :=
  .ofFields (a.fields ++ [("metadata", a.report.toValue)])

def bounded (bound : Int) (items : List Value) : List Value × AnswerReport :=
  let shown := upTo bound items
  if items.isEmpty then ([], .bare .emptyResult "no_matches")
  else if bound < items.length then
    (shown, ⟨.truncated, s!"showing first {bound} of {items.length}", items.length, shown.length⟩)
  else (items, ⟨.ok, "", items.length, items.length⟩)

end CodeAtlas
