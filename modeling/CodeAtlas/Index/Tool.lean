import CodeAtlas.Index.Question

/-! # Tools

The questions to an index under the names by which they are called, each with the one argument that
it takes.
-/

namespace CodeAtlas

inductive Tool where
  | listFiles
  | fileOutline
  | methodCode
  | searchCode
  | flowSummary
  | readFile
  deriving DecidableEq, Repr

namespace Tool

def all : List Tool :=
  [.fileOutline, .flowSummary, .listFiles, .methodCode, .readFile, .searchCode]

def name : Tool → String
  | .listFiles => "list_files"
  | .fileOutline => "file_outline"
  | .methodCode => "method_code"
  | .searchCode => "search_code"
  | .flowSummary => "flow_summary"
  | .readFile => "read_file_content"

/-- The name of the argument that a tool takes, if it takes one. -/
def parameter? : Tool → Option String
  | .listFiles => none
  | .fileOutline | .flowSummary | .readFile => some "file_path"
  | .methodCode => some "method_id"
  | .searchCode => some "query"

/-- The bound of a tool, if nothing else is said: of items, or of characters. -/
def defaultBound : Tool → Int
  | .listFiles | .fileOutline | .searchCode | .flowSummary => 100
  | .methodCode => 8000
  | .readFile => 1024 * 1024

def answer (tool : Tool) (fs : Files) (ix : Index) (argument : Value) (bound : Int) :
    Result Answer :=
  match tool with
  | .listFiles => ix.listFiles bound
  | .fileOutline => ix.fileOutline argument bound
  | .methodCode => ix.methodCode argument bound
  | .searchCode => ix.searchCode argument bound
  | .flowSummary => ix.flowSummary argument bound
  | .readFile => ix.readFile fs argument bound

def argumentPair (entries : List (Scalar × Value)) (item : Value) :
    Result (List (Scalar × Value)) := do
  match ← item.elements with
  | [k, v] => return Value.insert entries (← k.asKey) v
  | _ => throw (.unusable "not a pair")

/-- The named arguments of a call, given as a mapping or as a list of pairs. -/
def namedArguments (given : Value) : Result (List (Scalar × Value)) := do
  if !given.truthy then return []
  match given with
  | .map entries => return entries
  | v => (← v.elements).foldlM argumentPair []

/-- The value of the argument of a tool, where the arguments are the ones that it takes. -/
def argument (tool : Tool) (entries : List (Scalar × Value)) : Result Value := do
  let expected := tool.parameter?.toList
  let missing := expected.filter fun p => (Value.lookup entries (.text p)).isNone
  let strange := entries.filter fun e => !expected.any fun p => (Scalar.text p).same e.1
  let unexpected ← Value.sortOn id (strange.map fun e => .scalar e.1)
  if missing.isEmpty && unexpected.isEmpty then
    return (tool.parameter?.bind fun p => Value.lookup entries (.text p)).getD .null
  else throw (.toolArguments tool.name expected missing unexpected)

def ofName (name : String) : Result Tool :=
  match all.find? (·.name = name) with
  | some tool => .ok tool
  | none => .error (.unknownTool name (all.map Tool.name))

def call (fs : Files) (ix : Index) (name : String) (given : Value) : Result Answer := do
  let tool ← ofName name
  let value ← tool.argument (← namedArguments given)
  tool.answer fs ix value tool.defaultBound

end Tool

end CodeAtlas
