import CodeAtlas.Files.Tree

/-! # Writing files

Making directories and writing files, as a change of the file tree.
-/

namespace CodeAtlas.Files

def names (parts : List String) : List String := (parts.foldl (Path.push true) []).reverse

/-- Changes what is at a path. The path without its last part has to lead to a directory, and an
empty last part stands for a directory. -/
def alter (fs : Files) (path : String)
    (change : Option FileTree → Except PathFault FileTree) : Except PathFault Files :=
  if path.toList.contains '\x00' then .error .embeddedNul
  else do
    let parts := fs.parts path
    let above ← fs.tree.follow [] parts.dropLast
    if !above.isDirectory then throw .notDirectory
    if FileTree.nameLimit < (parts.getLastD "").utf8ByteSize then throw .nameTooLong
    return { fs with tree := ← FileTree.alter false change (names parts) (some fs.tree) }

def write (fs : Files) (path : String) (content : ByteArray) : Except PathFault Files :=
  if path = "" then .error .missing
  else if path.endsWith "/" then
    match fs.find path with
    | .error .notDirectory => .error .notDirectory
    | _ => .error .isDirectory
  else fs.alter path (FileTree.overwrite content)

/-- Makes a directory, where there must be nothing yet. -/
def makeDirectory (fs : Files) (path : String) : Except PathFault Files :=
  if path = "" then .error .missing
  else
    match fs.find path with
    | .ok _ => .error .exists
    | .error .notDirectory => .error .notDirectory
    | .error .embeddedNul => .error .embeddedNul
    | .error _ => fs.alter path FileTree.ensureDirectory

/-- Makes the directory whose path has the parts given in reverse, and those that it lies in. A
directory that is there already is left as it is. -/
def ensureParts (fs : Files) : List String → Result Files
  | [] => .ok fs
  | last :: above => do
    let path := "/".intercalate (last :: above).reverse
    let lower := (above.dropWhile (· = "")).reverse
    let head := "/".intercalate lower
    let known := lower.isEmpty || (fs.find head).isOk
    let fs ← if known then pure fs else ensureParts fs above
    if last = "." && !known then return fs
    match fs.makeDirectory path with
    | .ok fs => return fs
    | .error fault => if fs.isDirectory path then return fs else throw (.path path fault)

def ensureDirectory (fs : Files) (path : String) : Result Files :=
  match (Path.parts path).reverse.dropWhile (· = "") with
  | [] => if path = "" then .error (.path "" .missing) else .ok fs
  | reversed => ensureParts fs reversed

/-- The files that are new or have another content than before, by absolute path. -/
def changed (before after : Files) : List (String × ByteArray) :=
  (after.tree.walk (fun _ => true) "").filter fun (path, content) =>
    match before.find path with
    | .ok (.file old) => old != content
    | _ => true

/-- Puts a file or directory at an absolute path, with the directories that it lies in. A directory
that is there already is left as it is. -/
def place (fs : Files) (path : String) (t : FileTree) : Files :=
  let change : Option FileTree → Except PathFault FileTree
    | some (.directory entries) => .ok (if t.isDirectory then .directory entries else t)
    | _ => .ok t
  match FileTree.alter true change (names (fs.parts path)) (some fs.tree) with
  | .ok tree => { fs with tree := tree }
  | .error _ => fs

end CodeAtlas.Files
