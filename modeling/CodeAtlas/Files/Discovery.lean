import CodeAtlas.Files.Tree

/-! # Discovery of sources

The sources below a directory are the files with the extension of the language, outside hidden
directories and directories that hold what builds and tools leave behind.
-/

namespace CodeAtlas.Discovery

def sourceExtension : String := ".java"

def excluded : List String :=
  ["build", "target", "out", "bin", "node_modules", "venv", "__pycache__", "dist"]

/-- A directory that may hold sources. -/
def searched (name : String) : Bool := !name.startsWith "." && !excluded.contains name

def fileName (path : String) : String := (Path.parts path).getLastD ""

def isSource (path : String) : Bool := Path.extension (fileName path) == sourceExtension

/-- The absolute paths of the sources below a directory, sorted. -/
def sources (fs : Files) (directory : String) : Result (List String) :=
  let top := fs.absolute directory
  if fs.isDirectory top then
    match fs.find top with
    | .ok t =>
      let found := (t.walk searched (Path.unslashed top)).map (·.1)
      .ok ((found.filter isSource).mergeSort (· ≤ ·))
    | .error fault => .error (.path top fault)
  else .error (.noDirectory top)

end CodeAtlas.Discovery
