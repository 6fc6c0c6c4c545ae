import CodeAtlas.Number.Binary64

/-! # Dynamic values

The values of structured documents: JSON data, and beyond it what YAML documents may hold, namely
keys other than texts, octet strings, dates, sets and pairs. A mapping keeps its entries in
insertion order. Its keys are scalars, and two scalars that denote the same number or truth value
are the same key.
-/

namespace CodeAtlas

/-- A point in time as a document writes it; the offset from universal time is in seconds. -/
structure Timestamp where
  year : Nat
  month : Nat
  day : Nat
  hour : Nat
  minute : Nat
  second : Nat
  microsecond : Nat
  offset : Option Int
  deriving DecidableEq, Repr, Inhabited

inductive Scalar where
  | null
  | bool (b : Bool)
  | int (n : Int)
  | float (x : Binary64)
  | text (s : String)
  | octets (bytes : List UInt8)
  | date (year month day : Nat)
  | timestamp (t : Timestamp)
  deriving DecidableEq, Repr, Inhabited

inductive Value where
  | scalar (s : Scalar)
  | list (items : List Value)
  | map (entries : List (Scalar × Value))
  | set (items : List Scalar)
  | pair (first second : Value)
  deriving Repr, Inhabited

namespace Scalar

/-- The scalar that stands for all that equal it as keys: truth values count as numbers, and a
number with an integer value is that integer. -/
def canonical : Scalar → Scalar
  | .bool b => .int (if b then 1 else 0)
  | .float x =>
    match x.integer? with
    | some n => .int n
    | none => .float x
  | s => s

/-- Equality as keys. -/
def same (a b : Scalar) : Bool := a.canonical == b.canonical

/-- What counts as true: not nothing, not zero and not empty. -/
def truthy : Scalar → Bool
  | .null => false
  | .bool b => b
  | .int n => n != 0
  | .float x => !x.isZero
  | .text s => s != ""
  | .octets bytes => !bytes.isEmpty
  | .date .. => true
  | .timestamp _ => true

def typeName : Scalar → String
  | .null => "NoneType"
  | .bool _ => "bool"
  | .int _ => "int"
  | .float _ => "float"
  | .text _ => "str"
  | .octets _ => "bytes"
  | .date .. => "date"
  | .timestamp _ => "datetime"

end Scalar

namespace Value

@[match_pattern] abbrev null : Value := .scalar .null

@[match_pattern] abbrev bool (b : Bool) : Value := .scalar (.bool b)

@[match_pattern] abbrev int (n : Int) : Value := .scalar (.int n)

@[match_pattern] abbrev float (x : Binary64) : Value := .scalar (.float x)

@[match_pattern] abbrev text (s : String) : Value := .scalar (.text s)

mutual

/-- Equality of values is decided part by part. -/
def decEq : (a b : Value) → Decidable (a = b)
  | .scalar a, .scalar b => decidable_of_iff (a = b) (by simp)
  | .set a, .set b => decidable_of_iff (a = b) (by simp)
  | .list a, .list b =>
    have := decEqList a b
    decidable_of_iff (a = b) (by simp)
  | .map a, .map b =>
    have := decEqEntries a b
    decidable_of_iff (a = b) (by simp)
  | .pair a b, .pair a' b' =>
    have := decEq a a'
    have := decEq b b'
    decidable_of_iff (a = a' ∧ b = b') (by simp)
  | .scalar _, .list _ | .scalar _, .map _ | .scalar _, .set _ | .scalar _, .pair ..
  | .list _, .scalar _ | .list _, .map _ | .list _, .set _ | .list _, .pair ..
  | .map _, .scalar _ | .map _, .list _ | .map _, .set _ | .map _, .pair ..
  | .set _, .scalar _ | .set _, .list _ | .set _, .map _ | .set _, .pair ..
  | .pair .., .scalar _ | .pair .., .list _ | .pair .., .map _ | .pair .., .set _ =>
    isFalse nofun

def decEqList : (a b : List Value) → Decidable (a = b)
  | [], [] => isTrue rfl
  | a :: as, b :: bs =>
    have := decEq a b
    have := decEqList as bs
    decidable_of_iff (a = b ∧ as = bs) (by simp)
  | [], _ :: _ | _ :: _, [] => isFalse nofun

def decEqEntries : (a b : List (Scalar × Value)) → Decidable (a = b)
  | [], [] => isTrue rfl
  | (k, v) :: as, (k', v') :: bs =>
    have := decEq v v'
    have := decEqEntries as bs
    decidable_of_iff ((k = k' ∧ v = v') ∧ as = bs) (by simp)
  | [], _ :: _ | _ :: _, [] => isFalse nofun

end

instance : DecidableEq Value := decEq

def ofFields (fields : List (String × Value)) : Value :=
  .map (fields.map fun (k, v) => (.text k, v))

def ofTexts (ss : List String) : Value := .list (ss.map .text)

/-- The value under a key, as `Scalar.same` compares keys. -/
def lookup (entries : List (Scalar × Value)) (key : Scalar) : Option Value :=
  (entries.find? fun e => e.1.same key).map (·.2)

/-- Puts a value under a key: in place if the key is there, else at the end. -/
def insert (entries : List (Scalar × Value)) (key : Scalar) (v : Value) : List (Scalar × Value) :=
  match entries with
  | [] => [(key, v)]
  | (k, w) :: rest => if k.same key then (k, v) :: rest else (k, w) :: insert rest key v

/-- What counts as true: not nothing, not zero and not empty. -/
def truthy : Value → Bool
  | .scalar s => s.truthy
  | .list items => !items.isEmpty
  | .map entries => !entries.isEmpty
  | .set items => !items.isEmpty
  | .pair .. => true

def typeName : Value → String
  | .scalar s => s.typeName
  | .list _ => "list"
  | .map _ => "dict"
  | .set _ => "set"
  | .pair .. => "tuple"

end Value

end CodeAtlas
