import CodeAtlas.Data.Value

/-! # Equality of values

Two values are the same if their parts are, where numbers and truth values are compared by size and
the order of entries does not matter.
-/

namespace CodeAtlas.Value

mutual

def same : Value → Value → Bool
  | .scalar a, .scalar b => a.same b
  | .list a, .list b => sameItems a b
  | .map a, .map b => a.length == b.length && sameEntries a b
  | .set a, .set b => a.length == b.length && a.all fun x => b.any x.same
  | .pair a b, .pair a' b' => same a a' && same b b'
  | _, _ => false

def sameItems : List Value → List Value → Bool
  | [], [] => true
  | a :: as, b :: bs => same a b && sameItems as bs
  | _, _ => false

def sameEntries : List (Scalar × Value) → List (Scalar × Value) → Bool
  | [], _ => true
  | (k, v) :: rest, others =>
    (match lookup others k with
      | some w => same v w
      | none => false) && sameEntries rest others

end

end CodeAtlas.Value
