import CodeAtlas.Data.Equal

/-! # Property graphs

Nodes with labels, and relationships of a type between them. Both have properties; a property that
is not there is null. The identifiers of nodes are left open: those that a database gives are
numbers, and others say what a node stands for.
-/

namespace CodeAtlas.Graph

abbrev Properties := String → Value

def Properties.ofFields (fields : List (String × Value)) : Properties :=
  fun key => (fields.lookup key).getD .null

def Properties.set (p : Properties) (fields : List (String × Value)) : Properties :=
  fun key => (fields.lookup key).getD (p key)

structure Node (ι : Type) where
  id : ι
  labels : List String
  properties : Properties

structure Relationship (ι : Type) where
  source : ι
  target : ι
  type : String
  properties : Properties

structure PropertyGraph (ι : Type) where
  nodes : List (Node ι)
  relationships : List (Relationship ι)

/-- A node with the labels and with the same properties where some are given. A property that is
null is the same as none. -/
def Node.fits {ι : Type} (labels : List String) (fields : List (String × Value)) (n : Node ι) :
    Bool :=
  labels.all n.labels.contains &&
    fields.all fun (key, v) => v != .null && (n.properties key).same v

namespace PropertyGraph

variable {ι : Type}

def empty : PropertyGraph ι := ⟨[], []⟩

def ids (g : PropertyGraph ι) : List ι := g.nodes.map (·.id)

def addNode (g : PropertyGraph ι) (n : Node ι) : PropertyGraph ι :=
  { g with nodes := g.nodes ++ [n] }

def addRelationship (g : PropertyGraph ι) (r : Relationship ι) : PropertyGraph ι :=
  { g with relationships := g.relationships ++ [r] }

def setProperties [DecidableEq ι] (g : PropertyGraph ι) (id : ι) (fields : List (String × Value)) :
    PropertyGraph ι :=
  { g with nodes := g.nodes.map fun n =>
      if n.id = id then { n with properties := n.properties.set fields } else n }

/-- Removes nodes together with the relationships at them. -/
def without (g : PropertyGraph ι) (gone : ι → Bool) : PropertyGraph ι where
  nodes := g.nodes.filter fun n => !gone n.id
  relationships := g.relationships.filter fun r => !gone r.source && !gone r.target

def freshId (g : PropertyGraph Nat) : Nat := g.nodes.foldr (fun n next => max (n.id + 1) next) 0

end PropertyGraph

end CodeAtlas.Graph
