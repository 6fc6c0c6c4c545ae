import CodeAtlas.Entity.Declared
import CodeAtlas.Pipeline.Flow

/-! # What is stored of a file

A file result as rows for the graph. A type is addressed by its index in the file, so that types
of one name stay apart; a method refers to its type by that index, and a link to its stages by
their identifiers.
-/

namespace CodeAtlas.Graph

variable {α : Type} [Cell α]

structure TypeRow (α : Type) where
  index : Nat
  uri : String
  name : α
  kind : TypeKind
  extended : List α
  implemented : List α
  fields : List (Field α)
  deriving DecidableEq, Repr

/-- A call inside a method, by its position among the calls of the method. -/
structure CallRow (α : Type) where
  name : α
  position : Nat
  deriving DecidableEq, Repr

structure MethodRow (α : Type) where
  typeIndex : Nat
  uri : String
  name : α
  returnType : α
  isPublic : Bool
  isStatic : Bool
  parameterNames : List α
  parameterTypes : List α
  body : Option α
  calls : List (CallRow α)
  locals : List (LocalVariable α)
  deriving DecidableEq, Repr

structure StageRow (α : Type) where
  uri : String
  tag : StageTag
  operation : α
  arguments : List α
  binding : Option α
  line : Int
  ordinal : Int
  deriving DecidableEq, Repr

structure FlowRow (α : Type) where
  supplier : String
  consumer : String
  binding : α
  deriving DecidableEq, Repr

/-- The rows of a file. A failed file has none, but a reason. -/
structure Payload (α : Type) where
  path : α
  package : Option α
  imports : List α
  error : Option String
  types : List (TypeRow α)
  methods : List (MethodRow α)
  stages : List (StageRow α)
  flows : List (FlowRow α)
  deriving DecidableEq, Repr

def TypeRow.of (path : α) (index : Nat) (t : TypeDeclaration α) : Result (TypeRow α) :=
  return ⟨index, ← t.uri path index, t.name, t.kind, t.extended, t.implemented, t.fields⟩

def MethodRow.of (path : α) (index : Nat) (typeName : α) (m : Method α) : Result (MethodRow α) :=
  return ⟨index, ← m.uri path typeName, m.name, m.returnType, m.isPublic, m.isStatic,
    m.parameters.map (·.name), m.parameters.map (·.type), m.body,
    m.calls.mapIdx fun i name => ⟨name, i⟩, m.locals⟩

/-- The rows of the types of a file and of their methods, where the first type has an index. -/
def declarationRows (path : α) :
    Nat → List (TypeDeclaration α) → Result (List (TypeRow α) × List (MethodRow α))
  | _, [] => .ok ([], [])
  | index, t :: rest => do
    let row ← TypeRow.of path index t
    let methods ← t.methods.mapM (MethodRow.of path index t.name)
    let (types, others) ← declarationRows path (index + 1) rest
    return (row :: types, methods ++ others)

def StageRow.of (path : α) (s : Stage α) : StageRow α :=
  ⟨Flow.stageId path s, s.tag, s.operation, s.arguments, s.binding, s.line, s.ordinal⟩

def FlowRow.of (path : α) (e : FlowEdge α) : FlowRow α :=
  ⟨Flow.stageId path e.supplier, Flow.stageId path e.consumer, e.binding⟩

namespace Payload

def ofFailure (path : α) (reason : String) : Payload α :=
  ⟨path, none, [], some reason, [], [], [], []⟩

def ofExtraction (e : FileExtraction α) : Result (Payload α) := do
  let (types, methods) ← declarationRows e.path 0 e.types
  let flows ← Flow.edges e
  return ⟨e.path, e.source.package, e.source.imports, none, types, methods,
    e.stages.map (StageRow.of e.path), flows.map (FlowRow.of e.path)⟩

def ofResult : FileResult α → Result (Payload α)
  | .extracted e => ofExtraction e
  | .failed path reason => .ok (ofFailure path reason)

/-- The number of nodes below the node of the file. -/
def entityCount (p : Payload α) : Nat :=
  p.types.length + (p.types.flatMap (·.fields)).length + p.methods.length +
    (p.methods.flatMap (·.calls)).length + (p.methods.flatMap (·.locals)).length +
    p.stages.length

def nodeCount (p : Payload α) : Nat := 1 + p.entityCount

/-- The number of relationships: one to every node below the file, and the links. -/
def relationshipCount (p : Payload α) : Nat := p.entityCount + p.flows.length

end Payload

def variableValue (v : LocalVariable α) : Value :=
  .ofFields [("name", Cell.toValue v.name), ("type", Cell.toValue v.type),
    ("initial_value", cell? v.initialValue)]

def fieldValue (f : Field α) : Value :=
  .ofFields [("name", Cell.toValue f.name), ("type", Cell.toValue f.type),
    ("is_public", .bool f.isPublic), ("is_static", .bool f.isStatic),
    ("initial_value", cell? f.initialValue)]

def CallRow.toValue (c : CallRow α) : Value :=
  .ofFields [("name", Cell.toValue c.name), ("position", .int c.position)]

def TypeRow.toValue (t : TypeRow α) : Value :=
  .ofFields [("type_index", .int t.index), ("uri", .text t.uri), ("name", Cell.toValue t.name),
    ("kind", .text t.kind.name), ("extends", cells t.extended),
    ("implements", cells t.implemented), ("fields", .list (t.fields.map fieldValue))]

def MethodRow.toValue (m : MethodRow α) : Value :=
  .ofFields [("type_index", .int m.typeIndex), ("uri", .text m.uri),
    ("name", Cell.toValue m.name), ("return_type", Cell.toValue m.returnType),
    ("is_public", .bool m.isPublic), ("is_static", .bool m.isStatic),
    ("parameter_names", cells m.parameterNames), ("parameter_types", cells m.parameterTypes),
    ("body", cell? m.body), ("calls", .list (m.calls.map CallRow.toValue)),
    ("variables", .list (m.locals.map variableValue))]

def StageRow.toValue (s : StageRow α) : Value :=
  .ofFields [("uri", .text s.uri), ("tag", .text s.tag.name),
    ("operation", Cell.toValue s.operation), ("arguments", cells s.arguments),
    ("binding_identifier", cell? s.binding), ("line", .int s.line), ("ordinal", .int s.ordinal)]

def FlowRow.toValue (f : FlowRow α) : Value :=
  .ofFields [("upstream", .text f.supplier), ("downstream", .text f.consumer),
    ("binding_identifier", Cell.toValue f.binding)]

namespace Payload

def errorValue (error : Option String) : Value := (error.map Value.text).getD .null

def toValue (p : Payload α) : Value :=
  .ofFields [("path", Cell.toValue p.path), ("package", cell? p.package),
    ("imports", cells p.imports), ("error", errorValue p.error),
    ("types", .list (p.types.map TypeRow.toValue)),
    ("methods", .list (p.methods.map MethodRow.toValue)),
    ("stages", .list (p.stages.map StageRow.toValue)),
    ("edges", .list (p.flows.map FlowRow.toValue))]

end Payload

end CodeAtlas.Graph
