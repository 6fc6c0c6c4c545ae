import CodeAtlas.Graph.PropertyGraph
import CodeAtlas.Graph.Statement

/-! # What statements mean

The statements that work on files are queries. A query is a list of clauses. Each clause takes the
graph and a table of rows, in which names stand for nodes and values, to a graph and a table.
-/

namespace CodeAtlas.Graph

inductive Expression where
  /-- A parameter of the statement. -/
  | parameter (name : String)
  /-- A part of the value that a name stands for. -/
  | member (name key : String)
  deriving DecidableEq, Repr

/-- Names of properties with what is written for them. -/
abbrev Assignments := List (String × Expression)

structure NodePattern where
  name : Option String
  labels : List String
  properties : Assignments
  deriving DecidableEq, Repr

/-- Where a new relationship leads to. -/
inductive Target where
  | known (name : String)
  | made (node : NodePattern)
  deriving DecidableEq, Repr

/-- A new relationship from a known node. -/
structure Creation where
  source : String
  type : String
  properties : Assignments
  target : Target
  deriving DecidableEq, Repr

inductive Clause where
  /-- Looks for the nodes that fit. -/
  | find (node : NodePattern)
  /-- Goes through a list. -/
  | unwind (list : Expression) (name : String)
  /-- Looks for the nodes that fit, and makes one if there is none. -/
  | merge (node : NodePattern)
  /-- Sets properties of a node. -/
  | set (name : String) (properties : Assignments)
  /-- Makes a relationship. -/
  | create (what : Creation)
  /-- Makes a relationship for each item of a list. -/
  | forEach (name : String) (list : Expression) (what : Creation)
  /-- Removes a node with the relationships at it. -/
  | remove (name : String)
  deriving DecidableEq, Repr

abbrev Query := List Clause

def Expression.text : Expression → String
  | .parameter name => "$" ++ name
  | .member name key => name ++ "." ++ key

/-- Properties in braces, or nothing if there are none. -/
def Assignments.text (before after : String) (ps : Assignments) : String :=
  if ps.isEmpty then ""
  else " \x7b" ++ before ++ ", ".intercalate (ps.map fun (key, e) => key ++ ": " ++ e.text) ++
    after ++ "\x7d"

/-- A node in parentheses, with blanks inside the braces or without. -/
def NodePattern.text (before after : String) (n : NodePattern) : String :=
  "(" ++ n.name.getD "" ++ "".intercalate (n.labels.map (":" ++ ·)) ++
    n.properties.text before after ++ ")"

def Target.text : Target → String
  | .known name => "(" ++ name ++ ")"
  | .made node => node.text " " " "

def Creation.text (c : Creation) : String :=
  "CREATE (" ++ c.source ++ ")-[:" ++ c.type ++ c.properties.text "" "" ++ "]->" ++ c.target.text

def Clause.text : Clause → String
  | .find node => "MATCH " ++ node.text "" ""
  | .unwind list name => "UNWIND " ++ list.text ++ " AS " ++ name
  | .merge node => "MERGE " ++ node.text "" ""
  | .set name ps =>
    "SET " ++ ", ".intercalate (ps.map fun (key, e) => name ++ "." ++ key ++ " = " ++ e.text)
  | .create what => what.text
  | .forEach name list what =>
    "FOREACH (" ++ name ++ " IN " ++ list.text ++ " | " ++ what.text ++ " )"
  | .remove name => "DETACH DELETE " ++ name

def Query.text (q : Query) : String := " ".intercalate (q.map Clause.text)

inductive Bound where
  | node (id : Nat)
  | value (v : Value)
  deriving DecidableEq, Repr

abbrev Row := List (String × Bound)

def memberOf (v : Value) (key : String) : Value :=
  match v with
  | .map entries => (Value.lookup entries (.text key)).getD .null
  | _ => .null

def itemsOf (v : Value) : List Value :=
  match v with
  | .list items => items
  | _ => []

def Row.node? (row : Row) (name : String) : Option Nat :=
  match row.lookup name with
  | some (.node id) => some id
  | _ => none

def Row.bind (row : Row) (name : String) (b : Bound) : Row := (name, b) :: row

def Row.bindNode (row : Row) (name : Option String) (id : Nat) : Row :=
  match name with
  | some name => row.bind name (.node id)
  | none => row

section Effect

variable (ps : Value)

def Expression.value (row : Row) : Expression → Value
  | .parameter name => memberOf ps name
  | .member name key =>
    match row.lookup name with
    | some (.value v) => memberOf v key
    | _ => .null

def Assignments.values (row : Row) (as : Assignments) : List (String × Value) :=
  as.map fun (key, e) => (key, e.value ps row)

def NodePattern.make (row : Row) (id : Nat) (n : NodePattern) : Node Nat :=
  ⟨id, n.labels, .ofFields (n.properties.values ps row)⟩

def NodePattern.matches (g : PropertyGraph Nat) (row : Row) (n : NodePattern) : List Nat :=
  (g.nodes.filter (Node.fits n.labels (n.properties.values ps row))).map (·.id)

/-- Makes a relationship, and the node that it leads to if that is a new one. -/
def Creation.step (c : Creation) (g : PropertyGraph Nat) (row : Row) :
    PropertyGraph Nat × List Row :=
  match row.node? c.source, c.target with
  | none, _ => (g, [row])
  | some source, .known name =>
    match row.node? name with
    | none => (g, [row])
    | some target =>
      (g.addRelationship ⟨source, target, c.type, .ofFields (c.properties.values ps row)⟩, [row])
  | some source, .made node =>
    let id := g.freshId
    ((g.addNode (node.make ps row id)).addRelationship
      ⟨source, id, c.type, .ofFields (c.properties.values ps row)⟩, [row.bindNode node.name id])

def overRows (step : PropertyGraph Nat → Row → PropertyGraph Nat × List Row) :
    PropertyGraph Nat → List Row → PropertyGraph Nat × List Row
  | g, [] => (g, [])
  | g, row :: rows =>
    let (g, here) := step g row
    let (g, others) := overRows step g rows
    (g, here ++ others)

def unwound (row : Row) (list : Expression) (name : String) : List Row :=
  (itemsOf (list.value ps row)).map fun v => row.bind name (.value v)

def Clause.step : Clause → PropertyGraph Nat → Row → PropertyGraph Nat × List Row
  | .find node, g, row => (g, (node.matches ps g row).map (row.bindNode node.name))
  | .unwind list name, g, row => (g, unwound ps row list name)
  | .merge node, g, row =>
    match node.matches ps g row with
    | [] =>
      let id := g.freshId
      (g.addNode (node.make ps row id), [row.bindNode node.name id])
    | ids => (g, ids.map (row.bindNode node.name))
  | .set name as, g, row =>
    match row.node? name with
    | some id => (g.setProperties id (as.values ps row), [row])
    | none => (g, [row])
  | .create what, g, row => what.step ps g row
  | .forEach name list what, g, row =>
    ((overRows (what.step ps) g (unwound ps row list name)).1, [row])
  | .remove name, g, row =>
    match row.node? name with
    | some id => (g.without (· == id), [row])
    | none => (g, [row])

def Clause.run (c : Clause) (s : PropertyGraph Nat × List Row) : PropertyGraph Nat × List Row :=
  overRows (c.step ps) s.1 s.2

/-- What a query does. It starts with one row that has no names. -/
def Query.run (q : Query) (g : PropertyGraph Nat) : PropertyGraph Nat :=
  (q.foldl (fun s c => c.run ps s) (g, [[]])).1

end Effect

namespace Statement

variable {α : Type} [Cell α]

def filePattern : NodePattern := ⟨some "f", ["File"], [("path", .parameter "path")]⟩

/-- A node that belongs to a file, made from the parts of the value that a name stands for. -/
def entityPattern (name : Option String) (label item : String) (keys : List String) :
    NodePattern :=
  ⟨name, ["CodeEntity", label],
    ("file_path", .parameter "path") :: keys.map fun key => (key, .member item key)⟩

def typeCreation : Creation :=
  ⟨"f", "DECLARES", [], .made (entityPattern (some "ty") "Type" "t"
    ["type_index", "uri", "name", "kind", "extends", "implements"])⟩

def fieldCreation : Creation :=
  ⟨"ty", "HAS_FIELD", [], .made (entityPattern none "Field" "fd"
    ["name", "type", "is_public", "is_static", "initial_value"])⟩

def methodCreation : Creation :=
  ⟨"ty", "HAS_METHOD", [], .made (entityPattern (some "me") "Method" "m"
    ["uri", "name", "return_type", "is_public", "is_static", "parameter_names", "parameter_types",
      "body"])⟩

def callCreation : Creation :=
  ⟨"me", "CALLS_NAME", [], .made (entityPattern none "Call" "c" ["name", "position"])⟩

def localCreation : Creation :=
  ⟨"me", "DECLARES_VARIABLE", [], .made (entityPattern none "Variable" "v"
    ["name", "type", "initial_value"])⟩

def stageCreation : Creation :=
  ⟨"f", "HAS_STAGE", [], .made (entityPattern none "Stage" "s"
    ["uri", "tag", "operation", "arguments", "binding_identifier", "line", "ordinal"])⟩

def flowCreation : Creation :=
  ⟨"up", "FLOWS_TO", [("binding_identifier", .member "e" "binding_identifier")], .known "down"⟩

/-- The stage whose identifier is an end of a link. -/
def stagePattern (name key : String) : NodePattern :=
  ⟨some name, ["Stage"], [("file_path", .parameter "path"), ("uri", .member "e" key)]⟩

/-- The query of a statement. One that prepares the database is none. -/
def query : Statement α → Query
  | .uniqueFiles | .lookup .. => []
  | .deleteEntities _ =>
    [.find ⟨some "n", ["CodeEntity"], [("file_path", .parameter "path")]⟩, .remove "n"]
  | .deleteFile _ => [.find filePattern, .remove "f"]
  | .mergeFile .. =>
    [.merge filePattern, .set "f" [("package", .parameter "package"),
      ("imports", .parameter "imports"), ("error", .parameter "error")]]
  | .createTypes .. =>
    [.find filePattern, .unwind (.parameter "types") "t", .create typeCreation,
      .forEach "fd" (.member "t" "fields") fieldCreation]
  | .createMethods .. =>
    [.unwind (.parameter "methods") "m",
      .find ⟨some "ty", ["Type"],
        [("file_path", .parameter "path"), ("type_index", .member "m" "type_index")]⟩,
      .create methodCreation, .forEach "c" (.member "m" "calls") callCreation,
      .forEach "v" (.member "m" "variables") localCreation]
  | .createStages .. =>
    [.find filePattern, .unwind (.parameter "stages") "s", .create stageCreation]
  | .createFlows .. =>
    [.unwind (.parameter "edges") "e", .find (stagePattern "up" "upstream"),
      .find (stagePattern "down" "downstream"), .create flowCreation]

/-- Whether a statement works on data, and does not prepare the database. -/
def isOnData : Statement α → Bool
  | .uniqueFiles | .lookup .. => false
  | _ => true

def effect (s : Statement α) (g : PropertyGraph Nat) : PropertyGraph Nat :=
  s.query.run s.parameters g

end Statement

end CodeAtlas.Graph
