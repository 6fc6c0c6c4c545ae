import CodeAtlas.Data.Access
import CodeAtlas.Model.Basic

/-! # The exchange form of file results

Writing file results as values, and reading them back. What is written for an extraction lists
its stages by tag; reading puts them in the order of their ordinals again. Reading keeps whatever
stands in a text position, so it also accepts payloads that were written elsewhere.
-/

namespace CodeAtlas

variable {α : Type} [Cell α]

open Cell

def cells (xs : List α) : Value := .list (xs.map toValue)

def cell? (x : Option α) : Value := (x.map toValue).getD .null

/-- A field that is left out when it is absent. -/
def optionalField (key : String) (x : Option α) : List (String × Value) :=
  (x.map fun v => (key, toValue v)).toList

def Parameter.toValue (p : Parameter α) : Value :=
  .ofFields [("name", Cell.toValue p.name), ("type", Cell.toValue p.type)]

def LocalVariable.toValue (v : LocalVariable α) : Value :=
  .ofFields ([("name", Cell.toValue v.name), ("type", Cell.toValue v.type)] ++
    optionalField "initialValue" v.initialValue)

def Method.toValue (m : Method α) : Value :=
  .ofFields ([("name", Cell.toValue m.name), ("returnType", Cell.toValue m.returnType),
    ("isPublic", .bool m.isPublic), ("isStatic", .bool m.isStatic),
    ("parameters", .list (m.parameters.map Parameter.toValue))] ++
    optionalField "body" m.body ++
    [("methodCalls", cells m.calls), ("variables", .list (m.locals.map LocalVariable.toValue))])

def Field.toValue (f : Field α) : Value :=
  .ofFields ([("name", Cell.toValue f.name), ("type", Cell.toValue f.type),
    ("isPublic", .bool f.isPublic), ("isStatic", .bool f.isStatic)] ++
    optionalField "initialValue" f.initialValue)

def TypeDeclaration.toValue (t : TypeDeclaration α) : Value :=
  .ofFields [("name", Cell.toValue t.name), ("isInterface", .bool t.isInterface),
    ("extends", cells t.extended), ("implements", cells t.implemented),
    ("methods", .list (t.methods.map Method.toValue)),
    ("fields", .list (t.fields.map Field.toValue))]

/-- The fields of the exchange form of a stage, which does not name its tag. -/
def Stage.toFields (s : Stage α) : List (String × Value) :=
  [("operation", Cell.toValue s.operation), ("arguments", cells s.arguments),
    ("bindingIdentifier", cell? s.binding), ("line", .int s.line), ("ordinal", .int s.ordinal)]

def Stage.toValue (s : Stage α) : Value := .ofFields s.toFields

def FileExtraction.toFields (e : FileExtraction α) : List (String × Value) :=
  [("file", Cell.toValue e.path), ("package", cell? e.source.package),
    ("imports", cells e.source.imports),
    ("classes", .list (e.types.map TypeDeclaration.toValue)),
    ("pipelineStages", .ofFields (StageTag.all.map fun tag =>
      (tag.plural, .list ((e.stagesFor tag).map Stage.toValue))))]

def FileResult.toFields : FileResult α → List (String × Value)
  | .extracted e => e.toFields
  | .failed path reason => [("file", Cell.toValue path), ("error", .text reason)]

def FileResult.toValue (r : FileResult α) : Value := .ofFields r.toFields

/-- The parts of an entry that may be missing. -/
def elementsAt (v : Value) (key : String) : Result (List Value) := do
  (← v.entryD key (.list [])).elements

/-- An entry that may be missing or null. -/
def cellAt? (v : Value) (key : String) : Result (Option Value) :=
  return (← v.entry? key).bind Value.present?

def flagAt (v : Value) (key : String) : Result Bool :=
  return (← v.entryD key (.bool false)).truthy

def Parameter.ofValue (v : Value) : Result (Parameter Value) :=
  return ⟨← v.entry "name", ← v.entry "type"⟩

def LocalVariable.ofValue (v : Value) : Result (LocalVariable Value) :=
  return ⟨← v.entry "name", ← v.entry "type", ← cellAt? v "initialValue"⟩

def Method.ofValue (v : Value) : Result (Method Value) := do
  let name ← v.entry "name"
  let returnType ← v.entryD "returnType" (.text "")
  let isPublic ← flagAt v "isPublic"
  let isStatic ← flagAt v "isStatic"
  let parameters ← (← elementsAt v "parameters").mapM Parameter.ofValue
  let body ← cellAt? v "body"
  let calls ← elementsAt v "methodCalls"
  let locals ← (← elementsAt v "variables").mapM LocalVariable.ofValue
  return ⟨name, returnType, isPublic, isStatic, parameters, body, calls, locals⟩

def Field.ofValue (v : Value) : Result (Field Value) :=
  return ⟨← v.entry "name", ← v.entry "type", ← flagAt v "isPublic", ← flagAt v "isStatic",
    ← cellAt? v "initialValue"⟩

/-- Reads a type, whose name must not be empty. -/
def TypeDeclaration.ofValue (v : Value) : Result (TypeDeclaration Value) := do
  let name ← v.entry "name"
  let isInterface ← flagAt v "isInterface"
  let extended ← elementsAt v "extends"
  let implemented ← elementsAt v "implements"
  let methods ← (← elementsAt v "methods").mapM Method.ofValue
  let fields ← (← elementsAt v "fields").mapM Field.ofValue
  if name.truthy then
    return ⟨name, if isInterface then .interfaceType else .classType, extended, implemented,
      methods,
      fields⟩
  else throw .unnamedType

/-- Reads a stage. The ordinal given counts only if the value has none. -/
def Stage.ofValue (tag : StageTag) (ordinal : Nat) (v : Value) : Result (Stage Value) := do
  let operation ← v.entry "operation"
  let arguments ← elementsAt v "arguments"
  let binding ← cellAt? v "bindingIdentifier"
  let line ← (← v.entryD "line" (.int 0)).toInt
  let ordinal ← (← v.entryD "ordinal" (.int ordinal)).toInt
  return ⟨tag, operation, arguments, binding, line, ordinal⟩

/-- Reads stages of one tag; the ordinals of those without one go on from `next`. -/
def stagesOfValues (tag : StageTag) (next : Nat) : List Value → Result (List (Stage Value))
  | [] => return []
  | v :: vs => do
    let s ← Stage.ofValue tag next v
    return s :: (← stagesOfValues tag (next + 1) vs)

def stagesByTag (sections : Value) (next : Nat) : List StageTag → Result (List (Stage Value))
  | [] => return []
  | tag :: tags => do
    let here ← stagesOfValues tag next (← elementsAt sections tag.plural)
    return here ++ (← stagesByTag sections (next + here.length) tags)

/-- The order of stages in a file; it keeps the places of stages with the same ordinal. -/
def sortStages (stages : List (Stage α)) : List (Stage α) :=
  stages.mergeSort fun a b => a.ordinal ≤ b.ordinal

def FileExtraction.ofValue (v : Value) : Result (FileExtraction Value) := do
  let given ← v.entryD "pipelineStages" .null
  let sections := if given.truthy then given else .map []
  let stages ← stagesByTag sections 0 StageTag.all
  let path ← v.entry "file"
  let package ← cellAt? v "package"
  let imports ← elementsAt v "imports"
  let types ← (← elementsAt v "classes").mapM TypeDeclaration.ofValue
  return ⟨⟨path, package, imports⟩, types, sortStages stages, 0⟩

/-- Reads a file result. Whatever mentions an error is a failure. -/
def FileResult.ofValue (v : Value) : Result (FileResult Value) := do
  if ← v.mentions "error" then
    let path ← v.entry "file"
    let reason ← v.entry "error"
    return .failed path reason.plain
  else return .extracted (← FileExtraction.ofValue v)

end CodeAtlas
