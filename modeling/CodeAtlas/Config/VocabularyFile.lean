import CodeAtlas.Config.Document
import CodeAtlas.Data.Order
import CodeAtlas.Pipeline.Vocabulary

/-! # Vocabularies from elsewhere

A vocabulary is given as a mapping with a list of names for each tag. A missing section is that of
the standard vocabulary.
-/

namespace CodeAtlas.Vocabulary

def sections : List String := ["sinks", "sources", "transformations"]

def joinNames : (place : Nat) → List Value → Result (List String)
  | _, [] => .ok []
  | place, .text s :: rest => return s :: (← joinNames (place + 1) rest)
  | place, v :: _ =>
    .error (.wrongType s!"sequence item {place}: expected str instance, {v.typeName} found")

/-- What stands in the sections of a mapping that a vocabulary does not have. -/
def strangers (data : Value) : Result (List String) := do
  let keys ← (← data.elements).mapM Value.asKey
  let strange := keys.filter fun k => !sections.any fun s => (Scalar.text s).same k
  let distinct := (strange.map Scalar.canonical).eraseDups
  joinNames 0 (← Value.sortOn id (distinct.map .scalar))

def name? : Value → Option String
  | .text s => if s = "" then none else some s
  | _ => none

def items? : Value → Option (List Value)
  | .list items => some items
  | .set items => some (items.map .scalar)
  | _ => none

def readSection (data : Value) (part : String) (standard : List String) :
    Result (List String) := do
  if !(← data.mentions part) then return standard
  match items? (← data.entry part) with
  | none => throw (.sectionNotList part)
  | some items =>
    match items.mapM name? with
    | some names => return names.eraseDups
    | none => throw (.sectionNotNames part)

def ofValue (data : Value) : Result Vocabulary := do
  match ← strangers data with
  | [] =>
    let sinks ← readSection data "sinks" standard.sinks
    let sources ← readSection data "sources" standard.sources
    let transformations ← readSection data "transformations" standard.transformations
    return ⟨sources, transformations, sinks⟩
  | names => throw (.unknownSections names)

def isContentFailure : Failure → Bool
  | .unknownSections _ | .sectionNotList _ | .sectionNotNames _ => true
  | _ => false

def load? (reader : Config.Reader) (fs : Files) (path : String) (strict : Bool) :
    Warned (Option Vocabulary) := do
  let entries ← Config.load reader fs path strict
  if entries.isEmpty then return none
  match ofValue (.map entries) with
  | .ok v => return some v
  | .error f =>
    if isContentFailure f then
      Warned.reject strict s!"Invalid vocabulary in {path}: {f.message}" none
    else throw f

def load (reader : Config.Reader) (fs : Files) (path : String) (strict : Bool) :
    Warned Vocabulary :=
  return (← load? reader fs path strict).getD standard

/-- A vocabulary of given names; a text is a list of its characters. -/
def ofSections (sources transformations sinks : Option Value) : Result Vocabulary := do
  let names (given : Option Value) (standard : List String) : Result (List String) :=
    match given with
    | none => return standard
    | some v => do
      let keys ← (← v.elements).mapM Value.asKey
      return (keys.filterMap fun k => (Value.scalar k).text?).eraseDups
  return ⟨← names sources standard.sources, ← names transformations standard.transformations,
    ← names sinks standard.sinks⟩

end CodeAtlas.Vocabulary
