import CodeAtlas.Command.Switch
import CodeAtlas.Config.Environment

/-! # The arguments of a run

What a command line asks for. Either a directory of sources or a single file is the target.
-/

namespace CodeAtlas.Command

structure Arguments where
  sourceDirectory : Option String
  file : Option String
  outputFile : String
  workers : Option Int
  /-- The file of the vocabulary. -/
  vocabulary : Option String
  strict : Bool
  tolerant : Bool
  ingest : Bool
  reportDirectory : String
  deriving DecidableEq, Repr

namespace Arguments

def initial (env : Environment) : Arguments where
  sourceDirectory := none
  file := none
  outputFile := "output/code_model.jsonl"
  workers := none
  vocabulary := none
  strict := env.strict false
  tolerant := env.tolerant false
  ingest := false
  reportDirectory := "output/run_reports"

def hasTarget (a : Arguments) : Bool := a.sourceDirectory.isSome || a.file.isSome

end Arguments

/-- Why a command line is not run: it asks for help, or something is wrong with it. -/
inductive Stop where
  | help
  | usage (fault : UsageFault)
  deriving DecidableEq, Repr

def setValue (a : Arguments) (s : Switch) (text : String) : Except UsageFault Arguments :=
  match s with
  | .sourceDirectory =>
    if a.file.isSome then .error (.excluded s .file)
    else .ok { a with sourceDirectory := some text }
  | .file =>
    if a.sourceDirectory.isSome then .error (.excluded s .sourceDirectory)
    else .ok { a with file := some text }
  | .outputFile => .ok { a with outputFile := text }
  | .workers =>
    match Text.readInt? text with
    | some n => .ok { a with workers := some n }
    | none => .error (.notInteger s text)
  | .vocabulary => .ok { a with vocabulary := some text }
  | .reportDirectory => .ok { a with reportDirectory := text }
  | .help | .strict | .tolerant | .ingest => .error (.takesNoValue s text)

def set (a : Arguments) (s : Switch) : Except Stop Arguments :=
  match s with
  | .help => .error .help
  | .strict => .ok { a with strict := true }
  | .tolerant => .ok { a with tolerant := true }
  | .ingest => .ok { a with ingest := true }
  | s => .error (.usage (.expectsValue s))

/-- Where letters after the short switch for help lead to. It is the only short switch; it may be
repeated, and any other letter is disregarded in view of the help that is given. -/
def helpLetters : List Char → Stop
  | '-' :: cs => .usage (.takesNoValue .help (.ofList ('-' :: cs)))
  | 'h' :: '=' :: cs => .usage (.takesNoValue .help (.ofList cs))
  | 'h' :: cs => helpLetters cs
  | _ => .help

/-- Takes the words of a command line one by one; gives the arguments, and the words that are not
recognized. -/
def take (a : Arguments) : List (String × Word) → Except Stop (Arguments × List String)
  | [] => .ok (a, [])
  | (_, .switch _ (.letters cs)) :: _ => .error (helpLetters cs)
  | (_, .switch s (.value text)) :: rest =>
    match setValue a s text with
    | .ok a => take a rest
    | .error fault => .error (.usage fault)
  | (_, .switch s .nothing) :: rest =>
    if s.takesValue then
      match rest with
      | (text, .operand) :: rest =>
        match setValue a s text with
        | .ok a => take a rest
        | .error fault => .error (.usage fault)
      | _ => .error (.usage (.expectsValue s))
    else do take (← set a s) rest
  | (word, _) :: rest => do
    let (a, strangers) ← take a rest
    return (a, word :: strangers)

def Arguments.ofWords (env : Environment) (words : List String) : Except Stop Arguments := do
  let taken ← match Word.ofAll words with
    | .ok taken => .ok taken
    | .error fault => .error (.usage fault)
  let (a, strangers) ← take (initial env) taken
  if !a.hasTarget then throw (.usage .noTarget)
  if !strangers.isEmpty then throw (.usage (.unrecognized strangers))
  return a

end CodeAtlas.Command
