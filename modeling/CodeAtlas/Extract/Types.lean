import CodeAtlas.Failure
import CodeAtlas.Model.Basic
import CodeAtlas.Tree.Kind
import CodeAtlas.Tree.Traversal

/-! # Types and members of a tree

The header, the types and the members that a tree declares. Types are listed flat, nested ones
included, and every member belongs to the type in whose body it stands directly.
-/

namespace CodeAtlas.Extract

/-- The name of a qualified type without its qualifier. -/
def unqualifiedName (n : Node) : String :=
  if n.kind == Kind.scopedType then
    match (n.namedChildren.filter (·.kind == Kind.typeIdentifier)).getLast? with
    | some c => c.text
    | none => n.text
  else n.text

def simpleTypeName (n : Node) : String :=
  if n.kind == Kind.genericType then
    match n.namedChildren.find? fun c =>
      c.kind == Kind.typeIdentifier || c.kind == Kind.scopedType with
    | some c => unqualifiedName c
    | none => n.text
  else unqualifiedName n

def listedTypes (clause : Node) : List Node :=
  clause.namedChildren.flatMap fun c =>
    if c.kind == Kind.typeList then c.namedChildren else [c]

/-- The simple names of the types listed in a clause, annotations left out. -/
def supertypeNames (clause : Option Node) : List String :=
  match clause with
  | none => []
  | some c =>
    ((listedTypes c).filter fun t => !Kind.annotations.contains t.kind).map simpleTypeName

/-- The names in the clause of extended types and in that of implemented interfaces. -/
def supertypes (n : Node) : List String × List String :=
  if n.kind == Kind.interfaceDeclaration then
    (supertypeNames (n.childOfKind? Kind.extendsInterfaces), [])
  else
    (supertypeNames (n.child? "superclass"),
      supertypeNames (n.child? "interfaces" <|> n.childOfKind? Kind.superInterfaces))

/-- The dimensions written after a declared name, without spaces. -/
def dimensionsText (declarator : Node) : String :=
  .ofList ((declarator.childText "dimensions").toList.filter (· != ' '))

def declaredType (owner declarator : Node) : String :=
  owner.childText "type" ++ dimensionsText declarator

def hasModifier (n : Node) (modifier : String) : Bool :=
  n.children.any fun c => c.kind == Kind.modifiers && c.children.any (·.kind == modifier)

def spreadParameter (n : Node) : Parameter String :=
  let declarator := (n.namedChildren.filter (·.kind == Kind.variableDeclarator)).getLast?
  let type := n.namedChildren.find? fun c =>
    c.kind != Kind.variableDeclarator && c.kind != Kind.modifiers
  ⟨(declarator.getD n).childText "name", (type.map Node.text).getD "" ++ "..."⟩

/-- The parameter that a child of a parameter list declares. -/
def parameter? (n : Node) : Option (Parameter String) :=
  if n.kind == Kind.formalParameter then some ⟨n.childText "name", declaredType n n⟩
  else if n.kind == Kind.spreadParameter then some (spreadParameter n)
  else none

def parameters (method : Node) : List (Parameter String) :=
  match method.child? "parameters" with
  | none => []
  | some list => list.namedChildren.filterMap parameter?

def callName? (n : Node) : Option String :=
  if n.kind == Kind.methodInvocation then (n.child? "name").map Node.text else none

/-- The variable that a node with the given parent declares. -/
def declared? (parent n : Node) : Option (LocalVariable String) :=
  if n.kind == Kind.variableDeclarator then
    if parent.kind == Kind.spreadParameter then none
    else some ⟨n.childText "name", declaredType parent n, (n.child? "value").map Node.text⟩
  else if n.kind == Kind.enhancedFor then
    (n.child? "name").map fun name => ⟨name.text, declaredType n n, none⟩
  else if n.kind == Kind.resource then
    (n.child? "name").map fun name =>
      ⟨name.text, n.childText "type", (n.child? "value").map Node.text⟩
  else none

/-- The strict descendants of a node in document order, each with its parent. -/
def withParents (n : Node) : List (Node × Node) :=
  n.visitedWith (fun parent _ _ => parent) n

/-- The names of the calls below a node in document order. -/
def calls (body : Node) : List String := body.visited.filterMap callName?

def locals (body : Node) : List (LocalVariable String) :=
  (withParents body).filterMap fun (parent, n) => declared? parent n

def method (n : Node) : Method String :=
  let body := n.child? "body"
  { name := n.childText "name"
    returnType := declaredType n n
    isPublic := hasModifier n "public"
    isStatic := hasModifier n "static"
    parameters := parameters n
    body := body.map Node.text
    calls := (body.map calls).getD []
    locals := (body.map locals).getD [] }

/-- The field that a declarator declares, where `n` is the declaration around it. -/
def field (n declarator : Node) : Field String :=
  { name := declarator.childText "name"
    type := declaredType n declarator
    isPublic := hasModifier n "public"
    isStatic := hasModifier n "static"
    initialValue := (declarator.child? "value").map Node.text }

/-- The fields that a node declares, one for each name. -/
def fields (n : Node) : List (Field String) := (n.childrenAt "declarator").map (field n)

def members (n : Node) : List Node := ((n.child? "body").map Node.namedChildren).getD []

def typeOf (n : Node) : TypeDeclaration String :=
  { name := n.childText "name"
    kind := if n.kind == Kind.interfaceDeclaration then .interfaceType else .classType
    extended := (supertypes n).1
    implemented := (supertypes n).2
    methods := ((members n).filter (·.kind == Kind.methodDeclaration)).map method
    fields := ((members n).filter (Kind.fieldDeclarations.contains ·.kind)).flatMap fields }

def declaresType (n : Node) : Bool :=
  Kind.typeDeclarations.contains n.kind && n.childText "name" != ""

def types (root : Node) : List (TypeDeclaration String) :=
  (root.visited.filter declaresType).map typeOf

def qualifiedName? (n : Node) : Option String :=
  (n.namedChildren.find? (Kind.qualifiedNames.contains ·.kind)).map Node.text

def headerNames (root : Node) (kind : String) : List String :=
  (root.namedChildren.filter (·.kind == kind)).filterMap qualifiedName?

/-- The header of a file: the last package named, and the imports. -/
def sourceFile (path : String) (root : Node) : SourceFile String :=
  { path := path
    package := (headerNames root Kind.packageDeclaration).getLast?
    imports := headerNames root Kind.importDeclaration }

/-- Header and types of a tree whose root is a program. -/
def structureOf (path : String) (root : Option Node) :
    Result (SourceFile String × List (TypeDeclaration String)) :=
  match root with
  | none => .error (.noProgram none)
  | some r =>
    if r.kind == Kind.program then .ok (sourceFile path r, types r)
    else .error (.noProgram (some r.kind))

end CodeAtlas.Extract
