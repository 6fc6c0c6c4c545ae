import CodeAtlas.Extract.Source
import CodeAtlas.Files.Tree
import CodeAtlas.Model.Stats

/-! # Batches of files

Every path of a batch yields one result, whatever happens to its file. A batch can be cancelled
between two results; then nothing more is yielded.
-/

namespace CodeAtlas

namespace Extract

def parseFile (parser : Parser) (fs : Files) (tolerant : Bool) (path : String) :
    Except ParseFailure ParsedSource :=
  match fs.read path with
  | .ok content => parseSource parser tolerant content
  | .error fault => .error ⟨"Cannot read file: " ++ fault.message path, 0⟩

/-- The file result of the file at a path, recorded under the absolute form of the path. -/
def processFile (parser : Parser) (fs : Files) (v : Vocabulary) (tolerant : Bool) (path : String) :
    FileResult String :=
  let path := fs.absolute path
  ofParse (.standard v) path (parseFile parser fs tolerant path)

end Extract

namespace Batch

def path? : Value → Option String
  | .text s => some s
  | _ => none

/-- The paths of a batch, which have to be given as a collection of texts. -/
def paths (given : Value) : Result (List String) :=
  match given with
  | .text _ | .scalar (.octets _) => .error .singlePath
  | given =>
    match given.elements with
    | .error _ => .error (.pathsNotList given.typeName)
    | .ok entries =>
      match entries.find? fun v => (path? v).isNone with
      | some v => .error (.notAPath v)
      | none => .ok (entries.filterMap path?)

/-- The number of workers of a batch, which has to be positive. -/
def workers (count : Int) : Result Nat :=
  if count < 1 then .error (.tooFewWorkers count) else .ok count.toNat

/-- How work on a file fails without a file result. Interrupts reach the batch, and no worker. -/
structure Crash where
  why : Failure
  ne_interrupted : why ≠ .interrupted

abbrev Worker := String → Except Crash (FileResult String)

/-- The result of a path, also where the work on it fails. -/
def resultOf (fs : Files) (work : Worker) (path : String) : FileResult String :=
  match work path with
  | .ok r => r
  | .error ⟨why, _⟩ => .failed (fs.absolute path) s!"Worker failed: {why.kindName}: {why.message}"

/-- Takes results into a state one by one for as long as the state does not say that the batch is
cancelled. -/
def consume {σ ρ : Type} (cancelled : σ → Bool) (take : σ → ρ → σ) : σ → List ρ → σ
  | s, [] => s
  | s, r :: rs => if cancelled s then s else consume cancelled take (take s r) rs

end Batch

end CodeAtlas
