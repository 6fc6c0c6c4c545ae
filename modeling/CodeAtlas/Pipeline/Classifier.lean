import CodeAtlas.Pipeline.Vocabulary
import CodeAtlas.Tree.Kind
import CodeAtlas.Tree.Traversal

/-! # Classification of calls

Every call of a file whose name is in a vocabulary becomes a stage, once for each tag of the name,
in document order. A stage is bound to the variable that its call's result is stored in, if it is
a source, and else to the variable that the call is made on.
-/

namespace CodeAtlas.Classifier

/-- The source text of the arguments of a call, comments left out. -/
def arguments (call : Node) : List String :=
  match call.child? "arguments" with
  | none => []
  | some list =>
    (list.namedChildren.filter fun a => !Kind.comments.contains a.kind).map Node.text

def receiver? (call : Node) : Option String :=
  match call.child? "object" with
  | some r => if r.kind == Kind.identifier then some r.text else none
  | none => none

/-- The child at a place is the first one to fill a field. -/
def isFirstAt (parent : Node) (field : String) (place : Nat) : Bool :=
  parent.children.findIdx? (Node.fills field) == some place

/-- The variable that the value of the child at a place is stored in, where `outer` is the one
that the value of the parent is stored in: a declared variable, an assigned one, or what the
parentheses around the child are stored in. -/
def storedIn (parent : Node) (outer : Option String) (place : Nat) : Option String :=
  if parent.kind == Kind.parenthesized then outer
  else if parent.kind == Kind.variableDeclarator then
    if isFirstAt parent "value" place && parent.childText "name" != "" then
      some (parent.childText "name")
    else none
  else if parent.kind == Kind.assignment then
    match parent.child? "left" with
    | some left =>
      if isFirstAt parent "right" place && left.kind == Kind.identifier then some left.text
      else none
    | none => none
  else none

/-- The binding of a call for a tag, where `stored` is the variable that its result is stored
in. -/
def binding (stored : Option String) (call : Node) (tag : StageTag) : Option String :=
  if tag = .source then stored <|> receiver? call else receiver? call

/-- Adds the stages of a node to those found before it. The ordinal of a stage is the number of
stages found before. -/
def addStages (v : Vocabulary) (found : Array (Stage String)) (stored : Option String) (n : Node) :
    Array (Stage String) :=
  let operation := n.childText "name"
  if n.kind == Kind.methodInvocation && operation != "" then
    (v.tagsFor operation).foldl (fun found tag => found.push
      ⟨tag, operation, arguments n, binding stored n tag, n.line, found.size⟩) found
  else found

def stages (v : Vocabulary) (root : Node) : List (Stage String) :=
  let found := (root.visitedWith storedIn none).foldl
    (fun found (stored, n) => addStages v found stored n) #[]
  found.toList

end CodeAtlas.Classifier
