import CodeAtlas.Graph.Ingest
import CodeAtlas.Graph.Query

/-! # The graph after a history

The statements that were run have changed the graph one after the other. A transaction that fails
has run none.
-/

namespace CodeAtlas.Graph

variable {α : Type}

def effects [Cell α] (ss : List (Statement α)) (g : PropertyGraph Nat) : PropertyGraph Nat :=
  ss.foldl (fun g s => s.effect g) g

def Event.statement? : Event α → Option (Statement α)
  | .ran s => some s
  | _ => none

namespace Database

def statements (db : Database α) : List (Statement α) := db.history.filterMap Event.statement?

def graph [Cell α] (db : Database α) : PropertyGraph Nat := effects db.statements .empty

end Database

/-- A node that stands for the file at a path or belongs to it. -/
def Node.isOwned {ι : Type} (path : String) (n : Node ι) : Bool :=
  n.fits ["File"] [("path", .text path)] || n.fits ["CodeEntity"] [("file_path", .text path)]

def PropertyGraph.owned (path : String) (g : PropertyGraph Nat) : PropertyGraph Nat :=
  let nodes := g.nodes.filter (·.isOwned path)
  let ids := nodes.map (·.id)
  ⟨nodes, g.relationships.filter fun l => ids.contains l.source || ids.contains l.target⟩

inductive Update (α : Type) where
  | store (stats : IngestionStats) (r : FileResult α)
  | remove (path : α)
  deriving DecidableEq, Repr

namespace Update

def path : Update α → α
  | .store _ r => r.path
  | .remove path => path

variable [Cell α]

def perform (tries : Nat) (database : Option String) : Update α → Action α Unit
  | .store stats r => do
    let _ ← ingest database stats r tries
    return
  | .remove path => Graph.remove database path tries

/-- Makes calls one after the other, whether those before failed or not. Gives those that did not
fail. -/
def performAll (tries : Nat) (database : Option String) :
    List (Update α) → Database α → List (Update α) × Database α
  | [], db => ([], db)
  | u :: us, db =>
    let (outcome, db) := (u.perform tries database).outcome db
    let (committed, db) := performAll tries database us db
    match outcome with
    | .ok _ => (u :: committed, db)
    | .error _ => (committed, db)

end Update

end CodeAtlas.Graph
