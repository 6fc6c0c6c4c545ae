import CodeAtlas.Graph.Payload

/-! # Statements

What the graph database is asked to do. A statement is known by its meaning; its text, in the query
language of the database, and its parameters are what is sent.
-/

namespace CodeAtlas.Graph

variable {α : Type} [Cell α]

inductive Statement (α : Type) where
  /-- There is only one node for the file at a path. -/
  | uniqueFiles
  /-- The nodes with a label are looked up by a property. -/
  | lookup (index label property : String)
  /-- Removes all that belongs to a file, but not the node of the file. -/
  | deleteEntities (path : α)
  /-- Removes the node of a file. -/
  | deleteFile (path : α)
  /-- Makes the node of a file, unless it is there, and sets its properties. -/
  | mergeFile (path : α) (package : Option α) (imports : List α) (error : Option String)
  /-- Makes types with their fields under the node of the file. -/
  | createTypes (path : α) (rows : List (TypeRow α))
  /-- Makes methods with their calls and variables under their types. -/
  | createMethods (path : α) (rows : List (MethodRow α))
  /-- Makes stages under the node of the file. -/
  | createStages (path : α) (rows : List (StageRow α))
  | createFlows (path : α) (rows : List (FlowRow α))
  deriving DecidableEq, Repr

namespace Statement

def text : Statement α → String
  | .uniqueFiles =>
    "CREATE CONSTRAINT file_path IF NOT EXISTS FOR (f:File) REQUIRE f.path IS UNIQUE"
  | .lookup index label property =>
    s!"CREATE INDEX {index} IF NOT EXISTS FOR (n:{label}) ON (n.{property})"
  | .deleteEntities _ => "MATCH (n:CodeEntity \x7bfile_path: $path\x7d) DETACH DELETE n"
  | .deleteFile _ => "MATCH (f:File \x7bpath: $path\x7d) DETACH DELETE f"
  | .mergeFile .. =>
    "MERGE (f:File \x7bpath: $path\x7d) " ++
    "SET f.package = $package, f.imports = $imports, f.error = $error"
  | .createTypes .. =>
    "MATCH (f:File \x7bpath: $path\x7d) UNWIND $types AS t " ++
    "CREATE (f)-[:DECLARES]->(ty:CodeEntity:Type \x7b file_path: $path, " ++
    "type_index: t.type_index, uri: t.uri, name: t.name, kind: t.kind, " ++
    "extends: t.extends, implements: t.implements \x7d) " ++
    "FOREACH (fd IN t.fields | CREATE (ty)-[:HAS_FIELD]->(:CodeEntity:Field \x7b " ++
    "file_path: $path, name: fd.name, type: fd.type, is_public: fd.is_public, " ++
    "is_static: fd.is_static, initial_value: fd.initial_value \x7d) )"
  | .createMethods .. =>
    "UNWIND $methods AS m " ++
    "MATCH (ty:Type \x7bfile_path: $path, type_index: m.type_index\x7d) " ++
    "CREATE (ty)-[:HAS_METHOD]->(me:CodeEntity:Method \x7b file_path: $path, uri: m.uri, " ++
    "name: m.name, return_type: m.return_type, is_public: m.is_public, " ++
    "is_static: m.is_static, parameter_names: m.parameter_names, " ++
    "parameter_types: m.parameter_types, body: m.body \x7d) " ++
    "FOREACH (c IN m.calls | CREATE (me)-[:CALLS_NAME]->(:CodeEntity:Call \x7b " ++
    "file_path: $path, name: c.name, position: c.position \x7d) ) " ++
    "FOREACH (v IN m.variables | CREATE (me)-[:DECLARES_VARIABLE]->(:CodeEntity:Variable \x7b " ++
    "file_path: $path, name: v.name, type: v.type, initial_value: v.initial_value \x7d) )"
  | .createStages .. =>
    "MATCH (f:File \x7bpath: $path\x7d) UNWIND $stages AS s " ++
    "CREATE (f)-[:HAS_STAGE]->(:CodeEntity:Stage \x7b file_path: $path, uri: s.uri, " ++
    "tag: s.tag, operation: s.operation, arguments: s.arguments, " ++
    "binding_identifier: s.binding_identifier, line: s.line, ordinal: s.ordinal \x7d)"
  | .createFlows .. =>
    "UNWIND $edges AS e " ++
    "MATCH (up:Stage \x7bfile_path: $path, uri: e.upstream\x7d) " ++
    "MATCH (down:Stage \x7bfile_path: $path, uri: e.downstream\x7d) " ++
    "CREATE (up)-[:FLOWS_TO \x7bbinding_identifier: e.binding_identifier\x7d]->(down)"

def parameters : Statement α → Value
  | .uniqueFiles | .lookup .. => .ofFields []
  | .deleteEntities path | .deleteFile path => .ofFields [("path", Cell.toValue path)]
  | .mergeFile path package imports error =>
    .ofFields [("path", Cell.toValue path), ("package", cell? package),
      ("imports", cells imports), ("error", Payload.errorValue error)]
  | .createTypes path rows => rowsOf path "types" (rows.map TypeRow.toValue)
  | .createMethods path rows => rowsOf path "methods" (rows.map MethodRow.toValue)
  | .createStages path rows => rowsOf path "stages" (rows.map StageRow.toValue)
  | .createFlows path rows => rowsOf path "edges" (rows.map FlowRow.toValue)
where
  /-- The parameters of a statement that takes rows of a file. -/
  rowsOf (path : α) (name : String) (rows : List Value) : Value :=
    .ofFields [("path", Cell.toValue path), (name, .list rows)]

/-- What makes ready an empty database: one node for a path, and quick access to the properties
that are asked for. -/
def preparation : List (Statement α) :=
  [.uniqueFiles, .lookup "code_entity_file_idx" "CodeEntity" "file_path",
    .lookup "type_name_idx" "Type" "name", .lookup "method_name_idx" "Method" "name",
    .lookup "stage_uri_idx" "Stage" "uri",
    .lookup "stage_binding_idx" "Stage" "binding_identifier"]

def removal (path : α) : List (Statement α) := [.deleteEntities path, .deleteFile path]

end Statement

namespace Payload

/-- A statement over rows, which is left out when there are none. -/
def unlessEmpty {ρ : Type} (statement : List ρ → Statement α) (rows : List ρ) :
    List (Statement α) :=
  if rows.isEmpty then [] else [statement rows]

/-- Puts the rows of a file in the place of what is stored of it. -/
def statements (p : Payload α) : List (Statement α) :=
  [.deleteEntities p.path, .mergeFile p.path p.package p.imports p.error] ++
    unlessEmpty (.createTypes p.path) p.types ++ unlessEmpty (.createMethods p.path) p.methods ++
    unlessEmpty (.createStages p.path) p.stages ++ unlessEmpty (.createFlows p.path) p.flows

end Payload

end CodeAtlas.Graph
