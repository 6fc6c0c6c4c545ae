import CodeAtlas.Yaml.Tag
import CodeAtlas.Yaml.Token

/-! # Nodes of YAML

The tree that the tokens of a document form. An alias stands for the node with its anchor; a node
cannot hold itself.
-/

namespace CodeAtlas.Yaml

inductive Node where
  | scalar (tag : Tag) (text : String)
  | sequence (tag : Tag) (items : List Node)
  | mapping (tag : Tag) (entries : List (Node × Node))
  deriving Repr

def Node.absent : Node := .scalar (.ofPlain "") ""

instance : Inhabited Node := ⟨.absent⟩

def Node.tag : Node → Tag
  | .scalar t _ => t
  | .sequence t _ => t
  | .mapping t _ => t

structure Document where
  tokens : List Token
  /-- Why there are no more tokens after these. -/
  fault : Option Fault
  handles : List (String × String)
  /-- The nodes with an anchor; one that is not complete has no node yet. -/
  anchors : List (String × Option Node)

namespace Document

abbrev Reading := StateT Document (Except Fault)

def refuse {β : Type} (why : String) : Reading β := throw (.malformed why)

def peek : Reading Token := do
  let d ← get
  match d.tokens, d.fault with
  | t :: _, _ => return t
  | [], some f => throw f
  | [], none => refuse "the text ends too early"

def skip : Reading Unit := modify fun d => { d with tokens := d.tokens.drop 1 }

def accept (t : Token) : Reading Bool := do
  if (← peek) = t then
    skip
    return true
  else return false

def expect (t : Token) : Reading Unit := do
  if !(← accept t) then refuse "expected another token"

def atAny (ts : List Token) : Reading Bool := return ts.contains (← peek)

def openAnchor (name : String) : Reading Unit := do
  if (← get).anchors.any (·.1 = name) then refuse "found a duplicate anchor"
  modify fun d => { d with anchors := (name, none) :: d.anchors }

def closeAnchor (name : String) (n : Node) : Reading Unit :=
  modify fun d => { d with anchors := (name, some n) :: d.anchors.filter (·.1 ≠ name) }

def resolve (name : String) : Reading Node := do
  match ((← get).anchors.find? (·.1 = name)).map (·.2) with
  | some (some n) => return n
  | some none => refuse "found a node that holds itself"
  | none => refuse "found an undefined alias"

def anchor? : Reading (Option String) := do
  match ← peek with
  | .anchor name =>
    skip
    return some name
  | _ => return none

/-- The full name of a tag, if there is one here. -/
def tag? : Reading (Option String) := do
  match ← peek with
  | .tag handle suffix =>
    skip
    match handle with
    | none => return some suffix
    | some h =>
      match (← get).handles.find? (·.1 = h) with
      | some (_, lead) => return some (lead ++ suffix)
      | none => refuse "found an undefined tag handle"
  | _ => return none

/-- Anchor and tag of a node, in either order. -/
def properties : Reading (Option String × Option String) := do
  match ← anchor? with
  | some a => return (some a, ← tag?)
  | none =>
    let t ← tag?
    return (← anchor?, t)

def isOpen (tag : Option String) : Bool := tag.isNone || tag == some "!"

def scalarTag (tag : Option String) (text : String) (plain : Bool) : Tag :=
  match tag with
  | none => if plain then .ofPlain text else .text
  | some name => if name = "!" then .ofPlain text else .ofName name

def collectionTag (tag : Option String) (standard : Tag) : Tag :=
  match tag with
  | none => standard
  | some name => if name = "!" then standard else .ofName name

mutual

/-- Reads a node. Where `block` holds, it may be a block; where `compact` holds, its items may
start at the column of the key that it belongs to. -/
def node (block compact : Bool) : (fuel : Nat) → Reading Node
  | 0 => refuse "nested too deeply"
  | fuel + 1 => do
    match ← peek with
    | .alias name =>
      skip
      resolve name
    | _ =>
      let (anchor, tag) ← properties
      if let some a := anchor then openAnchor a
      let n ← content block compact anchor tag fuel
      if let some a := anchor then closeAnchor a n
      return n

def content (block compact : Bool) (anchor tag : Option String) : (fuel : Nat) → Reading Node
  | 0 => refuse "nested too deeply"
  | fuel + 1 => do
    let items := collectionTag tag .sequence
    let entries := collectionTag tag .mapping
    match ← peek with
    | .dash =>
      if compact then return .sequence items (← compactItems fuel)
      else leftOut anchor tag
    | .scalar text plain =>
      skip
      return .scalar (scalarTag tag text plain) text
    | .sequenceOpen =>
      skip
      return .sequence items (← flowItems true fuel)
    | .mappingOpen =>
      skip
      return .mapping entries (← flowEntries true fuel)
    | .blockSequence =>
      if block then
        skip
        return .sequence items (← blockItems fuel)
      else leftOut anchor tag
    | .blockMapping =>
      if block then
        skip
        return .mapping entries (← blockEntries fuel)
      else leftOut anchor tag
    | _ => leftOut anchor tag

/-- A node of which there is nothing but an anchor or a tag. -/
def leftOut (anchor tag : Option String) : Reading Node := do
  if anchor.isNone && tag.isNone then refuse "expected the content of a node"
  return .scalar (scalarTag tag "" (isOpen tag)) ""

/-- Reads a node, unless one of the tokens is here, before which it is left out. -/
def nodeUnless (ends : List Token) (block compact : Bool) : (fuel : Nat) → Reading Node
  | 0 => refuse "nested too deeply"
  | fuel + 1 => do
    if ← atAny ends then return .absent
    else node block compact fuel

def blockItems : (fuel : Nat) → Reading (List Node)
  | 0 => refuse "nested too deeply"
  | fuel + 1 => do
    if ← accept .dash then
      let n ← nodeUnless [.dash, .blockEnd] true false fuel
      return n :: (← blockItems fuel)
    else
      expect .blockEnd
      return []

/-- Reads items that belong to a key; they end where there is no other one. -/
def compactItems : (fuel : Nat) → Reading (List Node)
  | 0 => refuse "nested too deeply"
  | fuel + 1 => do
    if ← accept .dash then
      let n ← nodeUnless [.dash, .key, .value, .blockEnd] true false fuel
      return n :: (← compactItems fuel)
    else return []

def blockValue : (fuel : Nat) → Reading Node
  | 0 => refuse "nested too deeply"
  | fuel + 1 => do
    if ← accept .value then nodeUnless [.key, .value, .blockEnd] true true fuel
    else return .absent

def blockEntries : (fuel : Nat) → Reading (List (Node × Node))
  | 0 => refuse "nested too deeply"
  | fuel + 1 => do
    if ← accept .key then
      let k ← nodeUnless [.key, .value, .blockEnd] true true fuel
      let v ← blockValue fuel
      return (k, v) :: (← blockEntries fuel)
    else
      expect .blockEnd
      return []

/-- Reads a value between brackets that end with `close`, or nothing. -/
def flowValue (close : Token) : (fuel : Nat) → Reading Node
  | 0 => refuse "nested too deeply"
  | fuel + 1 => do
    if ← accept .value then nodeUnless [.comma, close] false false fuel
    else return .absent

/-- Reads the items between brackets. An entry among them is a mapping of its own. -/
def flowItems (first : Bool) : (fuel : Nat) → Reading (List Node)
  | 0 => refuse "nested too deeply"
  | fuel + 1 => do
    if ← accept .sequenceClose then return []
    if !first then expect .comma
    if ← accept .key then
      let k ← nodeUnless [.value, .comma, .sequenceClose] false false fuel
      let v ← flowValue .sequenceClose fuel
      return .mapping .mapping [(k, v)] :: (← flowItems false fuel)
    else if ← accept .sequenceClose then return []
    else
      let n ← node false false fuel
      return n :: (← flowItems false fuel)

def flowEntries (first : Bool) : (fuel : Nat) → Reading (List (Node × Node))
  | 0 => refuse "nested too deeply"
  | fuel + 1 => do
    if ← accept .mappingClose then return []
    if !first then expect .comma
    if ← accept .key then
      let k ← nodeUnless [.value, .comma, .mappingClose] false false fuel
      let v ← flowValue .mappingClose fuel
      return (k, v) :: (← flowEntries false fuel)
    else if ← accept .mappingClose then return []
    else
      let k ← node false false fuel
      return (k, .absent) :: (← flowEntries false fuel)

end

def standardHandles : List (String × String) := [("!", "!"), ("!!", Tag.family)]

/-- Reads the directives of a document; `version` holds if one was for the version. -/
def directives (version : Bool) : (fuel : Nat) → Reading Unit
  | 0 => refuse "too many directives"
  | fuel + 1 => do
    match ← peek with
    | .versionDirective major =>
      skip
      if version then refuse "found a duplicate version"
      if major ≠ 1 then refuse "found an incompatible version"
      directives true fuel
    | .tagDirective handle lead =>
      skip
      if (← get).handles.any (·.1 = handle) then refuse "found a duplicate tag handle"
      modify fun d => { d with handles := d.handles ++ [(handle, lead)] }
      directives version fuel
    | .otherDirective =>
      skip
      directives version fuel
    | _ => modify fun d => { d with handles := d.handles ++ standardHandles }

def skipEnds : (fuel : Nat) → Reading Unit
  | 0 => return
  | fuel + 1 => do
    if ← accept .documentEnd then skipEnds fuel

def single (fuel : Nat) : Reading (Option Node) := do
  match ← peek with
  | .streamEnd => return none
  | .versionDirective _ | .tagDirective .. | .otherDirective | .documentStart =>
    directives false fuel
    expect .documentStart
    match ← peek with
    | .versionDirective _ | .tagDirective .. | .otherDirective | .documentStart | .documentEnd
    | .streamEnd =>
      finish .absent
    | _ => finish (← node true false fuel)
  | _ =>
    modify fun d => { d with handles := standardHandles }
    finish (← node true false fuel)
where
  /-- Nothing may come after the document. -/
  finish (n : Node) : Reading (Option Node) := do
    skipEnds fuel
    expect .streamEnd
    return some n

end Document

def node? (cs : List Char) : Except Fault (Option Node) :=
  let (tokens, fault) := tokens cs
  let document : Document := ⟨tokens, fault, [], []⟩
  (Document.single (8 * tokens.length + 16) document).map (·.1)

end CodeAtlas.Yaml
