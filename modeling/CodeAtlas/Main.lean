import CodeAtlas.Java.Grammar
import CodeAtlas.Run.Pipeline
import CodeAtlas.Run.Stamp
import Std.Time.DateTime.Timestamp

/-! # The command line

The files that a run may look at are read, the run is worked out, and the files that it changed are
written. There is no way from here to a graph database, so that every attempt to connect finds it
unavailable.
-/

namespace CodeAtlas.Shell

open Command

def variableNames : List String :=
  ["STRICT_CONFIG_VALIDATION", "ALLOW_SYNTAX_ERRORS", "EXTRACTION_MAX_WORKERS", "NEO4J_URI",
    "NEO4J_AUTH", "NEO4J_DATABASE"]

def readEnvironment : IO Environment := do
  let found ← variableNames.filterMapM fun name => do
    return (← IO.getEnv name).map fun text => (name, text)
  return ⟨found⟩

/-- Reads what is at a path: a file with its content, and a directory with what is in it as far as
sources are searched there. The content of a file in a directory is read only if it is a source. -/
partial def readTree (home path : String) (top : Bool) : IO (Option FileTree) := do
  let p := (← IO.currentDir) / Path.absolute home path
  if ← p.isDir then
    let entries ← p.readDir
    let read ← entries.toList.filterMapM fun e => do
      let name := e.fileName
      let isLink := (← e.path.symlinkMetadata).type == .symlink
      if (← e.path.isDir) && (isLink || !Discovery.searched name) then
        return some (name, FileTree.directory [])
      else return (← readTree home (path ++ "/" ++ name) false).map fun t => (name, t)
    return some (.directory read)
  else if !(← p.pathExists) then return none
  else if top || Discovery.isSource path then
    return some (.file (← IO.FS.readBinFile p))
  else return some (.file .empty)

def addWay (fs : Files) (path : String) : IO Files := do
  let names := Files.names (Path.parts (fs.absolute path))
  let mut found := fs
  for n in List.range names.length do
    let way := "/" ++ "/".intercalate (names.take (n + 1))
    let p := (← IO.currentDir) / way
    if ← p.isDir then found := found.place way (.directory [])
    else if ← p.pathExists then found := found.place way (.file (← IO.FS.readBinFile p))
  return found

def addTree (fs : Files) (path : String) : IO Files := do
  match ← readTree fs.home path true with
  | some t => return fs.place (fs.absolute path) t
  | none => return fs

def readFiles (home : String) (a : Arguments) : IO Files := do
  let fs : Files := ⟨home, .directory []⟩
  let fs ← a.sourceDirectory.toList.foldlM addTree fs
  let files := a.file.toList ++ a.vocabulary.toList
  ([home, Run.compositionPath, a.outputFile, a.reportDirectory] ++ files).foldlM addWay fs

def writeFiles (before after : Files) : IO Unit :=
  (Files.changed before after).forM fun (path, content) => do
    IO.FS.createDirAll (Path.parent path)
    IO.FS.writeBinFile path content

def circumstances (env : Environment) : IO Run.Circumstances := do
  let octets ← IO.getRandomBytes 16
  let now ← Std.Time.Timestamp.now
  let nanoseconds := now.toNanosecondsSinceUnixEpoch.toInt.toNat
  return {
    environment := env
    parser := Java.tree
    reader := Yaml.read
    runId := Run.identifier octets.toList
    now := Run.timeText (nanoseconds / 1000000000) (nanoseconds / 1000 % 1000000)
    workers := 8
    tries := Graph.attempts
    interrupts := .none
    strays := fun _ => []
    arrival := id
    connect := Graph.reach Graph.attempts }

/-- Every attempt to connect finds the database unavailable. -/
def unreachable : Graph.Database String :=
  .fresh (.replicate Graph.attempts (some (.raised .unavailable "no route to the database"))) [] []

def message : Run.Ending → Option String
  | .stopped .help => some ("usage: " ++ Switch.usage)
  | .stopped (.usage fault) => some ("error: " ++ fault.message)
  | .finished _ => none
  | .failed why | .unreported why => some ("error: " ++ why.message)

/-- Runs a command line; gives the exit status. -/
def runWords (words : List String) : IO UInt32 := do
  let env ← readEnvironment
  match Arguments.ofWords env words with
  | .error why =>
    let ending := Run.Ending.stopped why
    (message ending).forM fun m => IO.eprintln m
    return ending.status.toUInt32
  | .ok a =>
    let fs ← readFiles (← IO.currentDir).toString a
    let c ← circumstances env
    let started ← IO.monoMsNow
    match (Run.run c a).run.run ⟨fs, unreachable, []⟩ with
    | (outcome, s) =>
      let elapsed := (← IO.monoMsNow) - started
      let (ending, s) := Run.conclude c elapsed a outcome s
      writeFiles fs s.files
      s.warnings.forM fun w => IO.eprintln ("warning: " ++ w)
      (message ending).forM fun m => IO.eprintln m
      return ending.status.toUInt32

end CodeAtlas.Shell

/-- Extracts the code model of Java sources into a file of lines. -/
def main (words : List String) : IO UInt32 := CodeAtlas.Shell.runWords words
