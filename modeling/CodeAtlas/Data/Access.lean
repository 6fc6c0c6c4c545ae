import CodeAtlas.Failure
import CodeAtlas.Text.Casing
import CodeAtlas.Text.Digits

/-! # Partial operations on values

Operations that a value offers or refuses according to its kind, for reading data from elsewhere
that need not have the expected shape.
-/

namespace CodeAtlas.Value

def mismatch (v : Value) (what : String) : Failure := .wrongType s!"'{v.typeName}' object {what}"

def entry? (v : Value) (key : String) : Result (Option Value) :=
  match v with
  | .map entries => .ok (lookup entries (.text key))
  | v => .error (.unsupported s!"'{v.typeName}' object has no attribute 'get'")

def entryD (v : Value) (key : String) (default : Value) : Result Value :=
  return (← v.entry? key).getD default

def entry (v : Value) (key : String) : Result Value :=
  match v with
  | .map entries =>
    match lookup entries (.text key) with
    | some w => .ok w
    | none => .error (.missingEntry key)
  | .list _ => .error (.wrongType "list indices must be integers or slices, not str")
  | .text _ => .error (.wrongType "string indices must be integers, not 'str'")
  | v => .error (v.mismatch "is not subscriptable")

/-- Whether `part` occurs in `whole` as a block. -/
def isInfix (part : List Char) : List Char → Bool
  | [] => part.isEmpty
  | c :: cs => part.isPrefixOf (c :: cs) || isInfix part cs

/-- Whether a text is a key of a mapping, an item of a list or a part of a text. -/
def mentions (v : Value) (key : String) : Result Bool :=
  match v with
  | .map entries => .ok (lookup entries (.text key)).isSome
  | .list items => .ok (items.any (· == .text key))
  | .set items => .ok (items.any (· == .text key))
  | .text s => .ok (isInfix key.toList s.toList)
  | .pair a b => .ok (a == .text key || b == .text key)
  | v => .error (v.mismatch "is not iterable")

/-- The parts of a value in order: items, keys, or the characters of a text. -/
def elements (v : Value) : Result (List Value) :=
  match v with
  | .list items => .ok items
  | .map entries => .ok (entries.map fun e => .scalar e.1)
  | .set items => .ok (items.map .scalar)
  | .text s => .ok (s.toList.map fun c => .text (.singleton c))
  | .pair a b => .ok [a, b]
  | .scalar (.octets bytes) => .ok (bytes.map fun b => .int b.toNat)
  | v => .error (v.mismatch "is not iterable")

/-- The integer that a value denotes: a number is cut toward zero, a text is read. -/
def toInt (v : Value) : Result Int :=
  match v with
  | .int n => .ok n
  | .bool b => .ok (if b then 1 else 0)
  | .float x =>
    match x.truncate? with
    | some n => .ok n
    | none =>
      if x.magnitude = .infinite then
        .error (.beyondRange "cannot convert float infinity to integer")
      else .error (.unusable "cannot convert float NaN to integer")
  | .text s =>
    match Text.readInt? s with
    | some n => .ok n
    | none => .error (.unusable ("invalid literal for int() with base 10: " ++ Text.quoted s))
  | v => .error (.wrongType ("int() argument must be a string, a bytes-like object or a real " ++
      s!"number, not '{v.typeName}'"))

def asText (v : Value) (operation : String) : Result String :=
  match v with
  | .text s => .ok s
  | v => .error (.unsupported s!"'{v.typeName}' object has no attribute '{operation}'")

def asKey (v : Value) : Result Scalar :=
  match v with
  | .scalar s => .ok s
  | v => .error (.wrongType s!"unhashable type: '{v.typeName}'")

/-- A scalar that can be written: not an integer of more than `Text.digitLimit` digits. -/
def isWritableScalar : Scalar → Bool
  | .int n => n.natAbs < Nat.pow 10 Text.digitLimit
  | _ => true

mutual

def isWritable : Value → Bool
  | .scalar s => isWritableScalar s
  | .list items => areWritable items
  | .map entries => areWritableEntries entries
  | .set items => items.all isWritableScalar
  | .pair a b => isWritable a && isWritable b

def areWritable : List Value → Bool
  | [] => true
  | v :: rest => isWritable v && areWritable rest

def areWritableEntries : List (Scalar × Value) → Bool
  | [] => true
  | (k, v) :: rest => isWritableScalar k && isWritable v && areWritableEntries rest

end

def written (v : Value) : Result String :=
  if v.isWritable then .ok v.plain
  else .error (.unusable s!"Exceeds the limit ({Text.digitLimit} digits) for integers in text")

def present? : Value → Option Value
  | .null => none
  | v => some v

end CodeAtlas.Value
