import CodeAtlas.Text.Lines
import CodeAtlas.Yaml.Node
import CodeAtlas.Yaml.ScalarValue

/-! # The content of a YAML text

The value of a node, and of a whole text. Of the faults in a tree the one nearest to its root is
reported, of several the first. A mapping takes over the entries of the mappings that are merged
into it, its own coming last; of entries with one key the last value counts, at the first place.
-/

namespace CodeAtlas.Yaml

/-- A value, and the faults met on the way to it, each with its depth. -/
structure Attempt (β : Type) where
  value : β
  faults : List (Nat × Fault)

namespace Attempt

variable {β γ : Type}

def ok (x : β) : Attempt β := ⟨x, []⟩

def fail (depth : Nat) (f : Fault) (x : β) : Attempt β := ⟨x, [(depth, f)]⟩

def map (f : β → γ) (a : Attempt β) : Attempt γ := ⟨f a.value, a.faults⟩

def both (a : Attempt β) (b : Attempt γ) : Attempt (β × γ) :=
  ⟨(a.value, b.value), a.faults ++ b.faults⟩

def all (as : List (Attempt β)) : Attempt (List β) := ⟨as.map (·.value), as.flatMap (·.faults)⟩

/-- The first of the faults that are nearest to the root. -/
def nearest : List (Nat × Fault) → Option (Nat × Fault)
  | [] => none
  | f :: rest =>
    match nearest rest with
    | some g => some (if g.1 < f.1 then g else f)
    | none => some f

def toExcept (a : Attempt β) : Except Fault β :=
  match nearest a.faults with
  | some (_, f) => .error f
  | none => .ok a.value

end Attempt

def wrongKind : Fault := .malformed "found a node of another kind"

def plainKey : Node → Node
  | .scalar .value text => .scalar .text text
  | n => n

mutual

/-- The entries that are merged into a mapping, and its own. -/
def mergedParts :
    List (Node × Node) → Except Fault (List (Node × Node) × List (Node × Node))
  | [] => .ok ([], [])
  | (k, v) :: rest => do
    let here ← if k.tag = .merge then mergeSource v else pure []
    let (merged, own) ← mergedParts rest
    return (here ++ merged, if k.tag = .merge then own else (plainKey k, v) :: own)

/-- The entries of what is merged: a mapping, or a list of them, of which the first one counts
most. -/
def mergeSource : Node → Except Fault (List (Node × Node))
  | .scalar .. => .error wrongKind
  | .sequence _ items => return (← mergeItems items).reverse.flatten
  | .mapping _ entries => do
    let (merged, own) ← mergedParts entries
    return merged ++ own

def mergeItems : List Node → Except Fault (List (List (Node × Node)))
  | [] => .ok []
  | .mapping _ entries :: rest => do
    let (merged, own) ← mergedParts entries
    return (merged ++ own) :: (← mergeItems rest)
  | _ :: _ => .error wrongKind

end

mutual

def textOf : Node → Except Fault String
  | .scalar _ text => .ok text
  | .sequence .. => .error wrongKind
  | .mapping _ entries => textOfEntries entries

/-- The text of the entry that stands for the whole mapping. -/
def textOfEntries : List (Node × Node) → Except Fault String
  | [] => .error wrongKind
  | (k, v) :: rest => if k.tag = .value then textOf v else textOfEntries rest

end

/-- Puts an entry into a mapping; its key must be a scalar. -/
def putEntry (depth : Nat) (entries : Attempt (List (Scalar × Value)))
    (entry : Attempt Value × Attempt Value) : Attempt (List (Scalar × Value)) :=
  match entry.1.value with
  | .scalar k => (entries.both (entry.1.both entry.2)).map fun (es, _, v) => Value.insert es k v
  | _ => ⟨entries.value, entries.faults ++ entry.1.faults ++
      [(depth, .malformed "found an unhashable key")] ++ entry.2.faults⟩

def valueOf (depth : Nat) : (fuel : Nat) → Node → Attempt Value
  | 0, _ => .fail depth (.malformed "nested too deeply") .null
  | fuel + 1, n =>
    let wrong : Attempt Value := .fail (depth + 1) wrongKind .null
    let entriesOf (entries : List (Node × Node)) : Attempt (List (Scalar × Value)) :=
      match mergedParts entries with
      | .error f => .fail (depth + 1) f []
      | .ok (merged, own) =>
        ((merged ++ own).map fun (k, v) =>
          (valueOf (depth + 1) fuel k, valueOf (depth + 1) fuel v)).foldl
            (putEntry (depth + 1)) (.ok [])
    let pairOf (item : Node) : Attempt Value :=
      match item with
      | .mapping _ [(k, v)] =>
        ((valueOf (depth + 1) fuel k).both (valueOf (depth + 1) fuel v)).map fun (a, b) =>
          .pair a b
      | _ => wrong
    match n.tag, n with
    | .sequence, .sequence _ items =>
      (Attempt.all (items.map (valueOf (depth + 1) fuel))).map .list
    | .mapping, .mapping _ entries => (entriesOf entries).map .map
    | .set, .mapping _ entries => (entriesOf entries).map fun es => .set (es.map (·.1))
    | .pairs, .sequence _ items | .orderedPairs, .sequence _ items =>
      (Attempt.all (items.map pairOf)).map .list
    | .sequence, _ | .mapping, _ | .set, _ | .pairs, _ | .orderedPairs, _ => wrong
    | tag, n =>
      match textOf n with
      | .error f =>
        if (scalarOf? tag "").isSome then .fail depth f .null
        else .fail depth (.malformed "found a tag that stands for no plain data") .null
      | .ok text =>
        match scalarOf? tag text with
        | some (.ok s) => .ok (.scalar s)
        | some (.error f) => .fail depth f .null
        | none => .fail depth (.malformed "found a tag that stands for no plain data") .null

mutual

def Node.height : Node → Nat
  | .scalar .. => 1
  | .sequence _ items => heightOfItems items + 1
  | .mapping _ entries => heightOfEntries entries + 1

def heightOfItems : List Node → Nat
  | [] => 0
  | n :: rest => max n.height (heightOfItems rest)

def heightOfEntries : List (Node × Node) → Nat
  | [] => 0
  | (k, v) :: rest => max (max k.height v.height) (heightOfEntries rest)

end

/-- The value of a text; an empty text stands for nothing. -/
def read (text : String) : Except Fault Value := do
  let cs := Text.unifyBreaks text.toList
  if !cs.all isAllowed then throw (.malformed "found a character that is not allowed")
  match ← node? cs with
  | none => return .null
  | some n => (valueOf 0 n.height n).toExcept

end CodeAtlas.Yaml
