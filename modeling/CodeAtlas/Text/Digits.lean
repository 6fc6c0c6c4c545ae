import CodeAtlas.Text.Blank

/-! # Decimal integers in text

A decimal integer may be written with the digits of any script, a sign, single underscores between
digits and white space around it. Numerals of more than `digitLimit` digits are refused.
-/

namespace CodeAtlas.Text

/-- The zero of every script that has decimal digits; the other nine follow it. -/
def zeros : List Nat := [
  0x30, 0x660, 0x6f0, 0x7c0, 0x966, 0x9e6, 0xa66, 0xae6, 0xb66, 0xbe6, 0xc66, 0xce6, 0xd66, 0xde6,
  0xe50, 0xed0, 0xf20, 0x1040, 0x1090, 0x17e0, 0x1810, 0x1946, 0x19d0, 0x1a80, 0x1a90, 0x1b50,
  0x1bb0, 0x1c40, 0x1c50, 0xa620, 0xa8d0, 0xa900, 0xa9d0, 0xa9f0, 0xaa50, 0xabf0, 0xff10, 0x104a0,
  0x10d30, 0x11066, 0x110f0, 0x11136, 0x111d0, 0x112f0, 0x11450, 0x114d0, 0x11650, 0x116c0,
  0x11730, 0x118e0, 0x11950, 0x11c50, 0x11d50, 0x11da0, 0x16a60, 0x16ac0, 0x16b50, 0x1d7ce,
  0x1d7d8, 0x1d7e2, 0x1d7ec, 0x1d7f6, 0x1e140, 0x1e2f0, 0x1e950, 0x1fbf0]

def digitValue? (c : Char) : Option Nat :=
  (zeros.find? fun z => z ≤ c.toNat && c.toNat < z + 10).map (c.toNat - ·)

/-- The greatest number of digits that a numeral may have. -/
def digitLimit : Nat := 4300

/-- White space that may surround a numeral: the information separators do not. -/
def isNumeralBlank (c : Char) : Bool :=
  isBlank c && !(0x1c ≤ c.toNat && c.toNat ≤ 0x1f)

/-- Digit values of a numeral, where an underscore stands only between two digits. -/
def digitsOf : List Char → Option (List Nat)
  | [] => none
  | [c] => (digitValue? c).map ([·])
  | c :: '_' :: rest => do
    let d ← digitValue? c
    let ds ← digitsOf rest
    return d :: ds
  | c :: rest => do
    let d ← digitValue? c
    let ds ← digitsOf rest
    return d :: ds

/-- The number that a list of digits denotes, most significant first. -/
def ofDigits (base : Nat) (ds : List Nat) : Nat :=
  ds.foldl (fun n d => base * n + d) 0

def readInt? (s : String) : Option Int := do
  let body := trimWhere isNumeralBlank s.toList
  let (negative, numeral) := match body with
    | '-' :: rest => (true, rest)
    | '+' :: rest => (false, rest)
    | rest => (false, rest)
  let ds ← digitsOf numeral
  if ds.length > digitLimit then none
  let n : Int := ofDigits 10 ds
  return if negative then -n else n

def digitIn? (base : Nat) (c : Char) : Option Nat :=
  let value :=
    if 'a' ≤ c && c ≤ 'f' then some (c.toNat - 'a'.toNat + 10)
    else if 'A' ≤ c && c ≤ 'F' then some (c.toNat - 'A'.toNat + 10)
    else digitValue? c
  value.filter (· < base)

/-- Reads a natural number in a base of at most 16, with white space around it and no underscores
in it. -/
def readNatIn? (base : Nat) (s : String) : Option Nat := do
  let digits := trimWhere isNumeralBlank s.toList
  if digits.isEmpty then none
  return ofDigits base (← digits.mapM (digitIn? base))

end CodeAtlas.Text
