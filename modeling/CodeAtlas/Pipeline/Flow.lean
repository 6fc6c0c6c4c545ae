import CodeAtlas.Entity.Uri
import CodeAtlas.Model.Wire

/-! # Flow between stages

Two stages of a file are linked when they have the same binding and their tags follow one another.
This joins names; it does not follow values through the program.
-/

namespace CodeAtlas

variable {α : Type} [Cell α]

structure FlowEdge (α : Type) where
  supplier : Stage α
  consumer : Stage α
  binding : α
  deriving DecidableEq, Repr

namespace Flow

def follows : StageTag → StageTag → Bool
  | .source, .transformation => true
  | .transformation, .transformation => true
  | .transformation, .sink => true
  | _, _ => false

def key (binding : α) : Result Scalar := return (← (Cell.toValue binding).asKey).canonical

def keyed (stages : List (Stage α)) : Result (List (Scalar × α × Stage α)) :=
  (stages.filterMap fun s => s.binding.map fun b => (b, s)).mapM fun (b, s) =>
    return (← key b, b, s)

/-- Bound stages grouped by their key, in the order of their first stages; a group takes the
binding of its first stage. -/
def groups (bound : List (Scalar × α × Stage α)) : List (α × List (Stage α)) :=
  (bound.map (·.1)).eraseDups.filterMap fun k =>
    match bound.filter (·.1 == k) with
    | [] => none
    | (_, b, s) :: rest => some (b, s :: rest.map (·.2.2))

def links (binding : α) (group : List (Stage α)) : List (FlowEdge α) :=
  group.flatMap fun up =>
    (group.filter fun down => up.ordinal ≠ down.ordinal && follows up.tag down.tag).map
      fun down => ⟨up, down, binding⟩

/-- The order of links: by the ordinal of the supplier, then by that of the consumer. -/
def precedes (a b : FlowEdge α) : Bool :=
  a.supplier.ordinal < b.supplier.ordinal ||
    (a.supplier.ordinal = b.supplier.ordinal && a.consumer.ordinal ≤ b.consumer.ordinal)

def edges (e : FileExtraction α) : Result (List (FlowEdge α)) := do
  let bound ← keyed e.stages
  return ((groups bound).flatMap fun (b, group) => links b group).mergeSort precedes

def stageId (path : α) (s : Stage α) : String :=
  Uri.ofStage (Cell.toValue path).plain s.tag.name s.ordinal

def endpoint (path : α) (s : Stage α) : Value :=
  .ofFields [("tag", .text s.tag.name), ("operation", Cell.toValue s.operation),
    ("line", .int s.line), ("id", .text (stageId path s))]

def edgeValue (path : α) (e : FlowEdge α) : Value :=
  .ofFields [("upstream", endpoint path e.supplier), ("downstream", endpoint path e.consumer),
    ("bindingIdentifier", Cell.toValue e.binding)]

def nodeValue (path : α) (s : Stage α) : Value :=
  .ofFields (s.toFields ++ [("tag", .text s.tag.name), ("id", .text (stageId path s))])

def graph (e : FileExtraction α) : Result Value := do
  let es ← edges e
  return .ofFields [("file", Cell.toValue e.path),
    ("nodes", .list (e.stages.map (nodeValue e.path))),
    ("edges", .list (es.map (edgeValue e.path)))]

end Flow

end CodeAtlas
