import CodeAtlas.Text.Digits
import CodeAtlas.Text.Quoted

/-! # The switches of the command line

The switches that the program knows, and how a word of a command line is taken: as a switch, as a
switch that does not exist, or as an operand. A long switch may be cut short as long as no other
starts that way.
-/

namespace CodeAtlas.Command

inductive Switch where
  | help
  | sourceDirectory
  | file
  | outputFile
  | workers
  | vocabulary
  | strict
  | tolerant
  | ingest
  | reportDirectory
  deriving DecidableEq, Repr

namespace Switch

def all : List Switch :=
  [.help, .sourceDirectory, .file, .outputFile, .workers, .vocabulary, .strict, .tolerant,
    .ingest, .reportDirectory]

def spellings : Switch → List String
  | .help => ["-h", "--help"]
  | .sourceDirectory => ["--source-dir"]
  | .file => ["--file"]
  | .outputFile => ["--output-file"]
  | .workers => ["--workers"]
  | .vocabulary => ["--vocabulary"]
  | .strict => ["--strict-config"]
  | .tolerant => ["--allow-syntax-errors"]
  | .ingest => ["--ingest-neo4j"]
  | .reportDirectory => ["--report-dir"]

def name (s : Switch) : String := "/".intercalate s.spellings

def takesValue : Switch → Bool
  | .help | .strict | .tolerant | .ingest => false
  | _ => true

def dictionary : List (String × Switch) :=
  all.flatMap fun s => s.spellings.map fun spelling => (spelling, s)

def usage : String :=
  " ".intercalate (all.map fun s =>
    "[" ++ " | ".intercalate s.spellings ++ (if s.takesValue then " VALUE" else "") ++ "]")

def ofSpelling? (spelling : String) : Option Switch :=
  (dictionary.find? (·.1 = spelling)).map (·.2)

end Switch

inductive UsageFault where
  | ambiguous (word : String) (spellings : List String)
  | expectsValue (s : Switch)
  | takesNoValue (s : Switch) (value : String)
  | excluded (s other : Switch)
  | notInteger (s : Switch) (value : String)
  | noTarget
  | unrecognized (words : List String)
  deriving DecidableEq, Repr

def UsageFault.message : UsageFault → String
  | .ambiguous word spellings =>
    s!"ambiguous option: {word} could match " ++ ", ".intercalate spellings
  | .expectsValue s => s!"argument {s.name}: expected one argument"
  | .takesNoValue s value =>
    s!"argument {s.name}: ignored explicit argument " ++ Text.quoted value
  | .excluded s other => s!"argument {s.name}: not allowed with argument {other.name}"
  | .notInteger s value => s!"argument {s.name}: invalid int value: " ++ Text.quoted value
  | .noTarget => "one of the arguments --source-dir --file is required"
  | .unrecognized words => "unrecognized arguments: " ++ " ".intercalate words

inductive Attachment where
  | nothing
  /-- A value after an equals sign. -/
  | value (text : String)
  /-- More letters after a short switch. -/
  | letters (cs : List Char)
  deriving DecidableEq, Repr

inductive Word where
  | operand
  /-- What follows it are operands. -/
  | separator
  | switch (s : Switch) (attached : Attachment)
  /-- A switch that does not exist. -/
  | unknown
  deriving DecidableEq, Repr

namespace Word

/-- A text before the first equals sign, and what follows it. -/
def cut (cs : List Char) : String × Attachment :=
  let before := cs.takeWhile (· != '=')
  (.ofList before, match cs.drop before.length with
    | [] => .nothing
    | _ :: after => .value (.ofList after))

/-- A text of decimal digits, which may be empty. -/
def allDigits (cs : List Char) : Bool := cs.all fun c => (Text.digitValue? c).isSome

/-- A negative number, which is an operand and no switch. A line break may end it. -/
def isNegativeNumber : List Char → Bool
  | '-' :: cs =>
    let cs := if cs.getLast? = some '\n' then cs.dropLast else cs
    let whole := cs.takeWhile fun c => (Text.digitValue? c).isSome
    match cs.drop whole.length with
    | [] => !whole.isEmpty
    | '.' :: fraction => !fraction.isEmpty && allDigits fraction
    | _ => false
  | _ => false

/-- The switches that a word may stand for, each with its spelling. A word with one hyphen may be
a short switch with more letters. -/
def candidates (cs : List Char) : List (String × Word) :=
  let isLong := "--".toList.isPrefixOf cs
  let (start, attached) := if isLong then cut cs else (.ofList cs, .nothing)
  Switch.dictionary.filterMap fun (spelling, s) =>
    if !isLong && spelling = .ofList (cs.take 2) then
      some (spelling, .switch s (.letters (cs.drop 2)))
    else if spelling.startsWith start then some (spelling, .switch s attached)
    else none

def ofHyphened (word : String) : Except UsageFault Word :=
  let cs := word.toList
  let (start, attached) := cut cs
  match Switch.ofSpelling? start with
  | some s => .ok (.switch s attached)
  | none =>
    match candidates cs with
    | [(_, w)] => .ok w
    | [] =>
      if isNegativeNumber cs || cs.contains ' ' then .ok .operand else .ok .unknown
    | many => .error (.ambiguous word (many.map (·.1)))

def of (word : String) : Except UsageFault Word :=
  if word = "--" then .ok .separator
  else if word.startsWith "-" && word ≠ "-" then ofHyphened word
  else .ok .operand

def ofAll : List String → Except UsageFault (List (String × Word))
  | [] => .ok []
  | word :: rest => do
    match ← of word with
    | .separator => return (word, .separator) :: rest.map fun w => (w, .operand)
    | w => return (word, w) :: (← ofAll rest)

end Word

end CodeAtlas.Command
