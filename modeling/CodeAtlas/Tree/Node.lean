/-! # Concrete trees

The concrete tree of a source text: every node has a kind, a text and a place, and may carry the
name of a field of its parent. The strict descendants of a node are listed in document order, each
before its own descendants.
-/

namespace CodeAtlas

structure Label where
  kind : String
  /-- Named nodes stand for constructs, the others for their punctuation and keywords. -/
  named : Bool
  /-- The field of the parent that the node fills. -/
  field : Option String
  /-- The source text; a node without one has the empty text. -/
  text : String
  /-- Line breaks before the node. -/
  row : Nat
  /-- Octets since the last line break. -/
  column : Nat
  /-- The node stands for something that the source lacks. -/
  missing : Bool
  /-- The node or something below it is faulty. -/
  hasError : Bool
  deriving DecidableEq, Repr, Inhabited

inductive Node where
  | mk (label : Label) (children : List Node)
  deriving Repr, Inhabited

namespace Node

def label : Node → Label
  | mk l _ => l

def children : Node → List Node
  | mk _ cs => cs

def kind (n : Node) : String := n.label.kind

def text (n : Node) : String := n.label.text

def line (n : Node) : Nat := n.label.row + 1

def column (n : Node) : Nat := n.label.column + 1

def namedChildren (n : Node) : List Node := n.children.filter (·.label.named)

def fills (field : String) (n : Node) : Bool := n.label.field == some field

def child? (n : Node) (field : String) : Option Node := n.children.find? (fills field)

def childrenAt (n : Node) (field : String) : List Node := n.children.filter (fills field)

/-- The text of the first child that fills a field; empty if there is none. -/
def childText (n : Node) (field : String) : String := ((n.child? field).map text).getD ""

def childOfKind? (n : Node) (kind : String) : Option Node := n.children.find? (·.kind == kind)

mutual

def descendants : Node → List Node
  | mk _ cs => forest cs

/-- The nodes of a list of trees in document order. -/
def forest : List Node → List Node
  | [] => []
  | c :: cs => c :: (descendants c ++ forest cs)

end

mutual

/-- The strict descendants in document order, each with a value that is handed down: `down` takes
a parent, its value, and the place of a child among its children. -/
def walk {σ : Type} (down : Node → σ → Nat → σ) (s : σ) : Node → List (σ × Node)
  | mk l cs => walkForest down (mk l cs) s 0 cs

/-- The nodes of the trees that start at a place among the children of `parent`. -/
def walkForest {σ : Type} (down : Node → σ → Nat → σ) (parent : Node) (s : σ) (place : Nat) :
    List Node → List (σ × Node)
  | [] => []
  | c :: cs =>
    (down parent s place, c) ::
      (walk down (down parent s place) c ++ walkForest down parent s (place + 1) cs)

end

end Node

end CodeAtlas
