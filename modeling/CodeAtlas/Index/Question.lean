import CodeAtlas.Entity.Declared
import CodeAtlas.Files.Tree
import CodeAtlas.Index.Answer
import CodeAtlas.Text.Lines

/-! # Questions to an index

What is asked of an index: its files, the outline of one of them, the code of a method, the matches
of a search, the flow between the stages of a file, and the text of a file. An answer shows no more
than a bound allows.
-/

namespace CodeAtlas.Index

def listFiles (ix : Index) (bound : Int) : Result Answer := do
  let entries ← (← ix.paths).mapM fun path => do
    match ← ix.extraction? path with
    | some e => return Value.ofFields [("path", path), ("package", cell? e.source.package)]
    | none =>
      return .ofFields [("path", path), ("error", .text ((← ix.reason? path).getD ""))]
  let (shown, report) := bounded bound entries
  return ⟨[("files", .list shown)], report⟩

def missingFile (ix : Index) (path : Value) : Result AnswerReport :=
  return .bare .missingFile ((← ix.reason? path).getD "file_not_indexed")

def methodSummary (path typeName : Value) (m : Method Value) : Result (List (String × Value)) :=
  return [("id", .text (← m.uri path typeName)), ("name", m.name), ("returnType", m.returnType),
    ("isPublic", .bool m.isPublic), ("isStatic", .bool m.isStatic),
    ("parameters", .list (m.parameters.map Parameter.toValue))]

/-- A type of a file without the bodies of its methods. -/
def typeOutline (path : Value) (t : TypeDeclaration Value) (index : Nat) : Result Value := do
  let id ← t.uri path index
  let methods ← t.methods.mapM fun m => return Value.ofFields (← methodSummary path t.name m)
  return .ofFields [("id", .text id), ("name", t.name), ("isInterface", .bool t.isInterface),
    ("extends", cells t.extended), ("implements", cells t.implemented),
    ("methods", .list methods), ("fields", .list (t.fields.map Field.toValue))]

def fileOutline (ix : Index) (path : Value) (bound : Int) : Result Answer := do
  match ← ix.extraction? path with
  | none => return ⟨[("file", path), ("classes", .list [])], ← missingFile ix path⟩
  | some e =>
    let types ← e.types.zipIdx.mapM fun (t, i) => typeOutline path t i
    let (shown, report) := bounded bound types
    return ⟨[("file", path), ("package", cell? e.source.package), ("classes", .list shown)],
      report⟩

def splitQualified (name : String) : Option (String × String) :=
  let reversed := name.toList.reverse
  let last := reversed.takeWhile (· != '.')
  match reversed.drop last.length with
  | [] => none
  | _ :: before => some (.ofList before.reverse, .ofList last.reverse)

def boundedBody (bound : Int) (body : Value) : Result (Value × AnswerReport) := do
  let whole : AnswerReport := ⟨.ok, "", 1, 1⟩
  let cut : AnswerReport := ⟨.truncated, s!"body truncated to {bound} characters", 1, 1⟩
  match body with
  | .null => return (.null, whole)
  | .text s =>
    if bound < s.length then return (.text (.ofList (upTo bound s.toList)), cut)
    else return (.text s, whole)
  | .list items =>
    if bound < items.length then return (.list (upTo bound items), cut) else return (body, whole)
  | .map entries =>
    if bound < entries.length then throw (.wrongType "unhashable type: 'slice'")
    else return (body, whole)
  | v => throw (.wrongType s!"object of type '{v.typeName}' has no len()")

/-- The first of the overloads with a signature, if a signature is asked for. -/
def overload? (signature : Option String) : List (Method Value) → Result (Option (Method Value))
  | [] => return none
  | m :: rest => do
    match signature.filter (· ≠ "") with
    | none => return some m
    | some s =>
      if Uri.signature (← m.parameterTypes) Uri.signatureLength = s then return some m
      else overload? signature rest

def methodCode (ix : Index) (id : Value) (bound : Int) : Result Answer := do
  let uri ← id.asText "split"
  let parts ← Uri.parse uri
  let some (typeName, name) := splitQualified parts.name | throw (.notMethodUri uri)
  if parts.kind ≠ "Method" then throw (.notMethodUri uri)
  let path : Value := .text parts.path
  if (← ix.extraction? path).isNone then
    return ⟨[("id", id)], .bare .missingFile "file_not_indexed"⟩
  match ← overload? parts.discriminator (← ix.overloads path (.text typeName) (.text name)) with
  | none => return ⟨[("id", id)], .bare .missingEntity "method_not_found"⟩
  | some m =>
    let (body, report) ← boundedBody bound (cell? m.body)
    return ⟨[("id", id), ("filePath", path), ("className", .text typeName),
      ("methodName", m.name), ("returnType", m.returnType),
      ("parameters", .list (m.parameters.map Parameter.toValue)),
      ("isPublic", .bool m.isPublic), ("isStatic", .bool m.isStatic), ("body", body),
      ("methodCalls", cells m.calls)], report⟩

def isBlankQuery (query : Value) : Result Bool := do
  if query.truthy then return Text.allBlank (← query.asText "strip") else return true

def methodHit (m : MethodMatch) : Result Value :=
  return .ofFields ((← methodSummary m.path m.typeName m.method) ++
    [("className", m.typeName), ("filePath", m.path), ("matchedIn", .text m.place.label)])

def typeHit (t : TypeEntry) : Result Value :=
  return .ofFields [("id", .text (← t.type.uri t.path t.index)), ("name", t.type.name),
    ("filePath", t.path)]

def searchFields (query : Value) (methods types paths : List Value) : List (String × Value) :=
  [("query", query), ("methods", .list methods), ("classes", .list types), ("files", .list paths)]

/-- The methods, types and paths that hold a term. One match more than the bound allows is looked
for, to know whether there are more. -/
def searchCode (ix : Index) (query : Value) (bound : Int) : Result Answer := do
  if ← isBlankQuery query then
    return ⟨searchFields query [] [] [], .bare .emptyResult "empty_query"⟩
  let methods ← (← ix.searchMethods query (bound + 1)).mapM methodHit
  let types ← (← ix.searchTypes query (bound + 1)).mapM typeHit
  let paths ← ix.searchPaths query (bound + 1)
  let lists := [methods, types, paths]
  let total := lists.flatten.length
  let returned := (lists.flatMap (upTo bound)).length
  let status : AnswerStatus × String :=
    if total = 0 then (.emptyResult, s!"No results found for query: \"{query.plain}\"")
    else if lists.any fun xs => bound < xs.length then
      (.truncated, s!"each list limited to {bound} items")
    else (.ok, "")
  return ⟨searchFields query (upTo bound methods) (upTo bound types) (upTo bound paths),
    ⟨status.1, status.2, total, returned⟩⟩

def flowSummary (ix : Index) (path : Value) (bound : Int) : Result Answer := do
  let without (report : AnswerReport) : Answer :=
    ⟨[("file", path), ("hasPipeline", .bool false)], report⟩
  match ← ix.extraction? path with
  | none => return without (← missingFile ix path)
  | some e =>
    if e.stages.isEmpty then
      return without (.bare .emptyResult "No pipeline elements found in this file")
    let links ← ix.links path
    let (shown, report) := bounded bound (links.map (Flow.edgeValue path))
    let report :=
      if report.status = .emptyResult then { report with status := .ok, reason := "no_flow_edges" }
      else report
    return ⟨[("file", path), ("hasPipeline", .bool true), ("edges", .list shown)] ++
      StageTag.all.map (fun tag =>
        (tag.plural, .list ((e.stagesFor tag).map (Flow.nodeValue path)))), report⟩

/-- The text of a file of the index, whatever its line ends. -/
def readFile (ix : Index) (fs : Files) (path : Value) (bound : Int) : Result Answer := do
  let without (reason : String) : Answer := ⟨[("file", path)], .bare .missingFile reason⟩
  if (← ix.result? path).isNone then return without "file_not_indexed"
  let .text name := path | throw (.wrongType "not a path")
  match fs.read name with
  | .error .embeddedNul => throw (.path name .embeddedNul)
  | .error fault => return without ("Cannot read file: " ++ fault.message name)
  | .ok content =>
    let text := Text.unifyBreaks (Text.Utf8.decodeLossyChars content.toList)
    if bound < text.length then
      return ⟨[("file", path), ("content", .text (.ofList (upTo bound text)))],
        ⟨.truncated, s!"content truncated to {bound} characters", 1, 1⟩⟩
    else return ⟨[("file", path), ("content", .text (.ofList text))], ⟨.ok, "", 1, 1⟩⟩

end CodeAtlas.Index
