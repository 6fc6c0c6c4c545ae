import CodeAtlas.Data.Value

/-! # The code model of a file

What is recorded about a source file: its header, its types with their methods and fields, and the
pipeline stages among its calls. The records are parametrised by what stands in their text
positions: texts when they are extracted, arbitrary values when they are read from elsewhere.
-/

namespace CodeAtlas

inductive TypeKind where
  | classType
  | interfaceType
  deriving DecidableEq, Repr

inductive StageTag where
  | source
  | transformation
  | sink
  deriving DecidableEq, Repr

namespace StageTag

def all : List StageTag := [.source, .transformation, .sink]

def name : StageTag → String
  | .source => "source"
  | .transformation => "transformation"
  | .sink => "sink"

def plural : StageTag → String
  | .source => "sources"
  | .transformation => "transformations"
  | .sink => "sinks"

end StageTag

def TypeKind.name : TypeKind → String
  | .classType => "class"
  | .interfaceType => "interface"

/-- The header of a source file: its package, if it names one, and its imports in order. -/
structure SourceFile (α : Type) where
  path : α
  package : Option α
  imports : List α
  deriving DecidableEq, Repr

structure Parameter (α : Type) where
  name : α
  type : α
  deriving DecidableEq, Repr

/-- A variable declared inside a method body. -/
structure LocalVariable (α : Type) where
  name : α
  type : α
  initialValue : Option α
  deriving DecidableEq, Repr

/-- A method declared directly in the body of a type. Without a body it has neither calls nor
variables. -/
structure Method (α : Type) where
  name : α
  returnType : α
  isPublic : Bool
  isStatic : Bool
  parameters : List (Parameter α)
  body : Option α
  /-- The simple names of the methods it calls. -/
  calls : List α
  locals : List (LocalVariable α)
  deriving DecidableEq, Repr

structure Field (α : Type) where
  name : α
  type : α
  isPublic : Bool
  isStatic : Bool
  initialValue : Option α
  deriving DecidableEq, Repr

/-- A class or interface declared anywhere in a file. -/
structure TypeDeclaration (α : Type) where
  name : α
  kind : TypeKind
  /-- The supertypes it extends, by simple name. -/
  extended : List α
  /-- The interfaces it implements, by simple name. -/
  implemented : List α
  methods : List (Method α)
  fields : List (Field α)
  deriving DecidableEq, Repr

def TypeDeclaration.isInterface {α : Type} (t : TypeDeclaration α) : Bool := t.kind = .interfaceType

structure Stage (α : Type) where
  tag : StageTag
  operation : α
  /-- The source text of each argument. -/
  arguments : List α
  /-- What links the stage to others, if anything does. -/
  binding : Option α
  /-- The line of the call, from one. -/
  line : Int
  /-- The position among the stages of the file. -/
  ordinal : Int
  deriving DecidableEq, Repr

structure FileExtraction (α : Type) where
  source : SourceFile α
  types : List (TypeDeclaration α)
  stages : List (Stage α)
  /-- How many faulty nodes the tree had. -/
  parseErrorCount : Nat
  deriving DecidableEq, Repr

namespace FileExtraction

variable {α : Type}

def path (e : FileExtraction α) : α := e.source.path

def stagesFor (e : FileExtraction α) (tag : StageTag) : List (Stage α) :=
  e.stages.filter (·.tag = tag)

end FileExtraction

inductive FileResult (α : Type) where
  | extracted (e : FileExtraction α)
  | failed (path : α) (reason : String)
  deriving DecidableEq, Repr

namespace FileResult

variable {α : Type}

def path : FileResult α → α
  | .extracted e => e.path
  | .failed p _ => p

def extraction? : FileResult α → Option (FileExtraction α)
  | .extracted e => some e
  | .failed .. => none

def reason? : FileResult α → Option String
  | .extracted _ => none
  | .failed _ r => some r

end FileResult

section Map

variable {α β : Type} (f : α → β)

/-- Applies a function in every text position. -/
def SourceFile.map (s : SourceFile α) : SourceFile β := ⟨f s.path, s.package.map f, s.imports.map f⟩

def Parameter.map (p : Parameter α) : Parameter β := ⟨f p.name, f p.type⟩

def LocalVariable.map (v : LocalVariable α) : LocalVariable β :=
  ⟨f v.name, f v.type, v.initialValue.map f⟩

def Method.map (m : Method α) : Method β :=
  ⟨f m.name, f m.returnType, m.isPublic, m.isStatic, m.parameters.map (·.map f), m.body.map f,
    m.calls.map f, m.locals.map (·.map f)⟩

def Field.map (x : Field α) : Field β :=
  ⟨f x.name, f x.type, x.isPublic, x.isStatic, x.initialValue.map f⟩

def TypeDeclaration.map (t : TypeDeclaration α) : TypeDeclaration β :=
  ⟨f t.name, t.kind, t.extended.map f, t.implemented.map f, t.methods.map (·.map f),
    t.fields.map (·.map f)⟩

def Stage.map (s : Stage α) : Stage β :=
  ⟨s.tag, f s.operation, s.arguments.map f, s.binding.map f, s.line, s.ordinal⟩

def FileExtraction.map (e : FileExtraction α) : FileExtraction β :=
  ⟨e.source.map f, e.types.map (·.map f), e.stages.map (·.map f), e.parseErrorCount⟩

def FileResult.map : FileResult α → FileResult β
  | .extracted e => .extracted (e.map f)
  | .failed p r => .failed (f p) r

end Map

/-- What can stand in the text positions of a record, seen as a value. -/
class Cell (α : Type) where
  toValue : α → Value

instance : Cell Value := ⟨id⟩

instance : Cell String := ⟨.text⟩

end CodeAtlas
