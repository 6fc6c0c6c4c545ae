import CodeAtlas.Data.Equal
import CodeAtlas.Data.Order
import CodeAtlas.Pipeline.Flow

/-! # The index of a code model

File results under their paths, for looking up what a path, a type or a method stands for. Of the
results with one path the last one counts, in the place of the first.
-/

namespace CodeAtlas

structure Indexed where
  path : Scalar
  result : FileResult Value
  deriving DecidableEq, Repr

/-- File results under different paths. -/
structure Index where
  entries : List Indexed
  deriving DecidableEq, Repr

structure TypeEntry where
  path : Value
  type : TypeDeclaration Value
  index : Nat
  deriving DecidableEq, Repr

namespace Index

/-- Puts a result under a path: in place if the path is there, else at the end. -/
def place (path : Scalar) (r : FileResult Value) : List Indexed → List Indexed
  | [] => [⟨path, r⟩]
  | e :: rest => if e.path.same path then ⟨e.path, r⟩ :: rest else e :: place path r rest

def add (ix : Index) (r : FileResult Value) : Result Index :=
  return ⟨place (← r.path.asKey) r ix.entries⟩

def ofResults (rs : List (FileResult Value)) : Result Index := rs.foldlM add ⟨[]⟩

def paths (ix : Index) : Result (List Value) :=
  Value.sortOn id (ix.entries.map fun e => .scalar e.path)

def result? (ix : Index) (path : Value) : Result (Option (FileResult Value)) :=
  return (ix.entries.find? (·.path.same (← path.asKey))).map (·.result)

def extraction? (ix : Index) (path : Value) : Result (Option (FileExtraction Value)) :=
  return (← ix.result? path).bind (·.extraction?)

def reason? (ix : Index) (path : Value) : Result (Option String) :=
  return (← ix.result? path).bind (·.reason?)

def types (ix : Index) (path : Value) : Result (List (TypeDeclaration Value)) :=
  return ((← ix.extraction? path).map (·.types)).getD []

def type? (ix : Index) (path name : Value) : Result (Option (TypeDeclaration Value)) :=
  return (← ix.types path).find? (·.name.same name)

def methods (ix : Index) (path typeName : Value) : Result (List (Method Value)) :=
  return ((← ix.type? path typeName).map (·.methods)).getD []

def fields (ix : Index) (path typeName : Value) : Result (List (Field Value)) :=
  return ((← ix.type? path typeName).map (·.fields)).getD []

def overloads (ix : Index) (path typeName name : Value) : Result (List (Method Value)) :=
  return (← ix.methods path typeName).filter (·.name.same name)

def typesOf (ix : Index) (path : Value) : Result (List TypeEntry) :=
  return (← ix.types path).zipIdx.map fun (t, i) => ⟨path, t, i⟩

def allTypes (ix : Index) : Result (List TypeEntry) :=
  return (← (← ix.paths).mapM ix.typesOf).flatten

/-- The stages of a path; if a tag is given, those with the tag. -/
def stages (ix : Index) (path : Value) (tag : Option StageTag) : Result (List (Stage Value)) :=
  return match ← ix.extraction? path, tag with
    | none, _ => []
    | some e, none => e.stages
    | some e, some tag => e.stagesFor tag

def stagesBoundTo (ix : Index) (path binding : Value) : Result (List (Stage Value)) :=
  return (← ix.stages path none).filter fun s => (cell? s.binding).same binding

def links (ix : Index) (path : Value) : Result (List (FlowEdge Value)) := do
  match ← ix.extraction? path with
  | none => return []
  | some e => Flow.edges e

def pipelines (ix : Index) : Result (List (Value × Nat)) := do
  let counted ← (← ix.paths).mapM fun p => return (p, (← ix.stages p none).length)
  return counted.filter (·.2 ≠ 0)

def extractions (ix : Index) : List (FileExtraction Value) :=
  ix.entries.filterMap (·.result.extraction?)

def statistics (ix : Index) : Value :=
  let types := ix.extractions.flatMap (·.types)
  let stages (tag : StageTag) : Nat := (ix.extractions.flatMap (·.stagesFor tag)).length
  .ofFields [("files", .int ix.entries.length),
    ("failedFiles", .int (ix.entries.length - ix.extractions.length : Nat)),
    ("classes", .int (types.countP fun t => !t.isInterface : Nat)),
    ("interfaces", .int (types.countP (·.isInterface) : Nat)),
    ("methods", .int (types.flatMap (·.methods)).length),
    ("fields", .int (types.flatMap (·.fields)).length),
    ("pipelineStages", .ofFields (StageTag.all.map fun t => (t.plural, .int (stages t))))]

end Index

end CodeAtlas
