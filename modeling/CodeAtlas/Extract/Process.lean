import CodeAtlas.Extract.Types
import CodeAtlas.Pipeline.Classifier
import CodeAtlas.Tree.Faults

/-! # From a tree to a file result

A parsed source becomes a file result: its types and its stages, or the reason why there are none.
Nothing that goes wrong in one file is raised; it is recorded as that file's failure.
-/

namespace CodeAtlas.Extract

structure ParsedSource where
  root : Option Node
  /-- The number of faulty nodes, where faults are tolerated. -/
  faults : Nat

/-- A source that was not parsed: the reason, and the number of faulty nodes. -/
structure ParseFailure where
  message : String
  faults : Nat
  deriving DecidableEq, Repr

/-- The reason that a tree with faulty nodes is refused for. -/
def faultMessage (root : Node) : String :=
  let place := match root.firstFault? with
    | some (line, column) => s!" at line {line}, column {column}"
    | none => ""
  s!"Syntax error{place} ({root.faultCount} error nodes)"

/-- Accepts a tree without faulty nodes, and any tree if faults are tolerated. -/
def accept (tolerant : Bool) (root : Node) : Except ParseFailure ParsedSource :=
  if !root.label.hasError then .ok ⟨some root, 0⟩
  else if tolerant then .ok ⟨some root, root.faultCount⟩
  else .error ⟨faultMessage root, root.faultCount⟩

/-- The phases of extraction; each of them may fail on a tree. -/
structure Phases where
  structureOf : String → Option Node → Result (SourceFile String × List (TypeDeclaration String))
  classify : Node → Result (List (Stage String))

def Phases.standard (v : Vocabulary) : Phases :=
  ⟨Extract.structureOf, fun root => .ok (Classifier.stages v root)⟩

def failureReason (f : Failure) : String :=
  match f with
  | .noProgram _ | .raised .malformedTree _ => "Malformed tree: " ++ f.message
  | f => s!"Extraction failed: {f.kindName}: {f.message}"

def extract (phases : Phases) (path : String) (parsed : ParsedSource) : FileResult String :=
  let outcome : Result (FileExtraction String) := do
    let (source, types) ← phases.structureOf path parsed.root
    let stages ← match parsed.root with
      | some root => phases.classify root
      | none => .error (.unsupported "'NoneType' object has no attribute 'children'")
    return ⟨source, types, stages, parsed.faults⟩
  match outcome with
  | .ok e => .extracted e
  | .error f => .failed path (failureReason f)

def ofParse (phases : Phases) (path : String) (outcome : Except ParseFailure ParsedSource) :
    FileResult String :=
  match outcome with
  | .ok parsed => extract phases path parsed
  | .error e => .failed path ("Parse error: " ++ e.message)

/-- The result of a file records the path that the file was parsed at. -/
theorem path_ofParse (v : Vocabulary) (path : String) (outcome : Except ParseFailure ParsedSource) :
    (ofParse (.standard v) path outcome).path = path := by
  rcases outcome with e | ⟨root | root, faults⟩
  · rfl
  · rfl
  · by_cases h : root.kind == Kind.program
    · simp only [ofParse, extract, Phases.standard, structureOf, if_pos h]
      rfl
    · simp only [ofParse, extract, Phases.standard, structureOf, if_neg h]
      rfl

end CodeAtlas.Extract
