import CodeAtlas.Failure
import CodeAtlas.Files.Path

/-! # File trees

The files that a run sees, as a value: a tree of directories, in which one of them is the working
directory. Paths are followed part by part, so that a path through a file or through nothing fails
where it does so on a disk.
-/

namespace CodeAtlas

inductive FileTree where
  | file (content : ByteArray)
  | directory (entries : List (String × FileTree))
  deriving Inhabited

namespace FileTree

def child? (name : String) : FileTree → Option FileTree
  | .file _ => none
  | .directory entries => (entries.find? (·.1 = name)).map (·.2)

def isDirectory : FileTree → Bool
  | .file _ => false
  | .directory _ => true

/-- The longest name that an entry can have, in octets. -/
def nameLimit : Nat := 255

/-- Follows the parts of a path downward; `above` holds the directories on the way. -/
def follow (above : List FileTree) (here : FileTree) : List String → Except PathFault FileTree
  | [] => .ok here
  | part :: rest =>
    if !here.isDirectory then .error .notDirectory
    else if part = "" || part = "." then follow above here rest
    else if part = ".." then
      match above with
      | [] => follow [] here rest
      | up :: above => follow above up rest
    else if nameLimit < part.utf8ByteSize then .error .nameTooLong
    else
      match here.child? part with
      | some next => follow (here :: above) next rest
      | none => .error .missing

def replaceEntry (name : String) (t : FileTree) :
    List (String × FileTree) → List (String × FileTree)
  | [] => [(name, t)]
  | (n, old) :: rest => if n = name then (n, t) :: rest else (n, old) :: replaceEntry name t rest

/-- Changes the entry at the end of a list of names, which `change` sees as it is now; directories
on the way that do not exist are made if `makeParents` holds. -/
def alter (makeParents : Bool) (change : Option FileTree → Except PathFault FileTree) :
    List String → Option FileTree → Except PathFault FileTree
  | [], here => change here
  | name :: rest, some (.directory entries) => do
    let next ← alter makeParents change rest ((FileTree.directory entries).child? name)
    return .directory (replaceEntry name next entries)
  | _ :: _, some (.file _) => .error .notDirectory
  | name :: rest, none =>
    if makeParents then do
      let next ← alter makeParents change rest none
      return .directory [(name, next)]
    else .error .missing

/-- Writes a file, in place of the one that may be there. -/
def overwrite (content : ByteArray) : Option FileTree → Except PathFault FileTree
  | some (.directory _) => .error .isDirectory
  | _ => .ok (.file content)

def ensureDirectory : Option FileTree → Except PathFault FileTree
  | some (.file _) => .error .exists
  | some d => .ok d
  | none => .ok (.directory [])

mutual

/-- The files of a tree below a path, each with its path, in directories whose name is wanted. -/
def walk (wanted : String → Bool) (path : String) : FileTree → List (String × ByteArray)
  | .file content => [(path, content)]
  | .directory entries => walkEntries wanted path entries

def walkEntries (wanted : String → Bool) (path : String) :
    List (String × FileTree) → List (String × ByteArray)
  | [] => []
  | (name, t) :: rest =>
    (if t.isDirectory && !wanted name then [] else walk wanted (path ++ "/" ++ name) t) ++
      walkEntries wanted path rest

end

end FileTree

/-- The files that a run sees: the absolute path of the working directory, and the directory that
all absolute paths start from. -/
structure Files where
  home : String
  tree : FileTree
  deriving Inhabited

namespace Files

def absolute (fs : Files) (path : String) : String := Path.absolute fs.home path

def parts (fs : Files) (path : String) : List String := Path.parts (Path.join fs.home path)

def find (fs : Files) (path : String) : Except PathFault FileTree :=
  if path.toList.contains '\x00' then .error .embeddedNul
  else if path = "" then .error .missing
  else fs.tree.follow [] (fs.parts path)

def read (fs : Files) (path : String) : Except PathFault ByteArray := do
  match ← fs.find path with
  | .file content => return content
  | .directory _ => throw .isDirectory

def isDirectory (fs : Files) (path : String) : Bool :=
  match fs.find path with
  | .ok t => t.isDirectory
  | .error _ => false

def isFile (fs : Files) (path : String) : Bool :=
  match fs.find path with
  | .ok t => !t.isDirectory
  | .error _ => false

end Files

end CodeAtlas
