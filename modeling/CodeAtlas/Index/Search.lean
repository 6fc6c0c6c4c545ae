import CodeAtlas.Index.Basic

/-! # Search in an index

A search finds the methods, types or paths that hold a term, whatever the case of its letters. A
term of white space finds nothing. A limit leaves the first matches.
-/

namespace CodeAtlas

/-- The part of a list up to a bound; a negative bound leaves off as many items at the end. -/
def upTo {β : Type} (bound : Int) (xs : List β) : List β :=
  if 0 ≤ bound then xs.take bound.toNat else xs.take (xs.length - bound.natAbs)

inductive MatchPlace where
  | name
  | body
  deriving DecidableEq, Repr

def MatchPlace.label : MatchPlace → String
  | .name => "name"
  | .body => "body"

structure MethodMatch where
  path : Value
  typeName : Value
  method : Method Value
  place : MatchPlace
  deriving DecidableEq, Repr

namespace Index

/-- The number of matches that are found at most, if nothing else is said. -/
def searchLimit : Int := 50

def needle (term : Value) : Result String :=
  match term with
  | .text s => .ok (Text.lower (Text.trim s))
  | v => .error (.termNotText v.typeName)

/-- Whether something holds a term; nothing holds none. -/
def holds (term : String) (v : Value) : Result Bool :=
  match v with
  | .null => .ok false
  | v => return Value.isInfix term.toList (Text.lower (← v.asText "lower")).toList

/-- Where a method holds a term: in its name, or else in its body. -/
def placeOf (term : String) (m : Method Value) : Result (Option MatchPlace) := do
  if ← holds term m.name then return some .name
  else if ← holds term (cell? m.body) then return some .body
  else return none

/-- The methods that hold a term, up to the one that reaches the limit; `found` matches came
before. -/
def matchMethods (term : String) (limit : Int) (found : Nat) :
    List (TypeEntry × Method Value) → Result (List MethodMatch)
  | [] => return []
  | (t, m) :: rest => do
    match ← placeOf term m with
    | none => matchMethods term limit found rest
    | some place =>
      let here : MethodMatch := ⟨t.path, t.type.name, m, place⟩
      if limit ≤ (found + 1 : Nat) then return [here]
      else return here :: (← matchMethods term limit (found + 1) rest)

def allMethods (types : List TypeEntry) : List (TypeEntry × Method Value) :=
  types.flatMap fun t => t.type.methods.map fun m => (t, m)

def searchMethods (ix : Index) (term : Value) (limit : Int) : Result (List MethodMatch) := do
  let term ← needle term
  if term = "" then return []
  matchMethods term limit 0 (allMethods (← ix.allTypes))

def searchTypes (ix : Index) (term : Value) (limit : Int) : Result (List TypeEntry) := do
  let term ← needle term
  if term = "" then return []
  return upTo limit (← (← ix.allTypes).filterM fun t => holds term t.type.name)

def searchPaths (ix : Index) (term : Value) (limit : Int) : Result (List Value) := do
  let term ← needle term
  if term = "" then return []
  return upTo limit (← (← ix.paths).filterM (holds term))

end Index

end CodeAtlas
