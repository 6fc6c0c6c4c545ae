/-! # Binary floating point

Numbers of the 64-bit binary interchange format, kept as their bits so that equality is decidable
and everything about them is computed exactly. A finite number is `m · 2 ^ q` for naturals `m`
below `2 ^ 53`; every operation computes the exact result and rounds it once, a tie to the even
neighbour.
-/

namespace CodeAtlas

structure Binary64 where
  bits : UInt64
  deriving DecidableEq, Repr, Inhabited

/-- What the bits of a number denote, its sign apart. -/
inductive Magnitude where
  /-- The number `m * 2 ^ q`. -/
  | finite (m : Nat) (q : Int)
  | infinite
  | notANumber
  deriving DecidableEq, Repr

namespace Binary64

def negative (x : Binary64) : Bool := Nat.pow 2 63 ≤ x.bits.toNat

/-- The magnitude that the exponent and fraction fields denote. -/
def magnitude (x : Binary64) : Magnitude :=
  let exponent : Nat := x.bits.toNat / Nat.pow 2 52 % 2048
  let fraction : Nat := x.bits.toNat % Nat.pow 2 52
  if exponent = 2047 then if fraction = 0 then .infinite else .notANumber
  else if exponent = 0 then .finite fraction (-1074)
  else .finite (Nat.pow 2 52 + fraction) ((exponent : Int) - 1075)

/-- Builds a number from its sign and the bits of its magnitude. -/
def ofFields (negative : Bool) (fields : Nat) : Binary64 :=
  ⟨.ofNat (if negative then Nat.pow 2 63 + fields else fields)⟩

def zero (negative : Bool) : Binary64 := ofFields negative 0

def infinity (negative : Bool) : Binary64 := ofFields negative (2047 * Nat.pow 2 52)

def nan : Binary64 := ofFields false (2047 * Nat.pow 2 52 + Nat.pow 2 51)

/-- The quotient rounded to the nearest integer, a tie to the even one. -/
def roundDiv (num den : Nat) : Nat :=
  let q := num / den
  let r := num % den
  if 2 * r < den || (2 * r = den && q % 2 = 0) then q else q + 1

/-- `num / den` measured in units of `2 ^ e`, rounded. -/
def scaled (num den : Nat) (e : Int) : Nat :=
  if 0 ≤ e then roundDiv num (den * Nat.pow 2 e.toNat)
  else roundDiv (num * Nat.pow 2 (-e).toNat) den

def ofRatio (negative : Bool) (num den : Nat) : Binary64 :=
  if num = 0 || den = 0 then zero negative
  else
    let guess : Int := (num.log2 : Int) - den.log2 - 52
    -- the quotient lies within a factor of two of `2 ^ (guess + 52)`
    let below := if 0 ≤ guess then decide (num < den * Nat.pow 2 (guess + 52).toNat)
      else decide (num * Nat.pow 2 (-guess).toNat < den * Nat.pow 2 52)
    let e := max (if below then guess - 1 else guess) (-1074)
    let m := scaled num den e
    let (m, e) := if m = Nat.pow 2 53 then (Nat.pow 2 52, e + 1) else (m, e)
    if 971 < e then infinity negative
    else if m < Nat.pow 2 52 then ofFields negative m
    else ofFields negative ((e + 1075).toNat * Nat.pow 2 52 + (m - Nat.pow 2 52))

def ofDecimal (negative : Bool) (digits : Nat) (exponent : Int) : Binary64 :=
  let order : Int := exponent + (Nat.toDigits 10 digits).length
  if digits = 0 then zero negative
  else if 310 < order then infinity negative
  else if order < -330 then zero negative
  else if 0 ≤ exponent then ofRatio negative (digits * Nat.pow 10 exponent.toNat) 1
  else ofRatio negative digits (Nat.pow 10 (-exponent).toNat)

def ofInt (n : Int) : Binary64 := ofRatio (decide (n < 0)) n.natAbs 1

/-- The exact value of a finite number, over a power of two. -/
def dyadic? (x : Binary64) : Option (Int × Nat) :=
  match x.magnitude with
  | .finite m q =>
    let n : Int := if 0 ≤ q then m * Nat.pow 2 q.toNat else m
    some (if x.negative then -n else n, if 0 ≤ q then 1 else Nat.pow 2 (-q).toNat)
  | _ => none

/-- The nearest number to an exact fraction; an exact zero is positive. -/
def ofFraction (num : Int) (den : Nat) : Binary64 := ofRatio (decide (num < 0)) num.natAbs den

def add (x y : Binary64) : Binary64 :=
  match x.dyadic?, y.dyadic? with
  | some (a, p), some (b, q) => ofFraction (a * q + b * p) (p * q)
  | _, _ => nan

def mul (x y : Binary64) : Binary64 :=
  match x.dyadic?, y.dyadic? with
  | some (a, p), some (b, q) =>
    ofRatio (x.negative != y.negative) (a * b).natAbs (p * q)
  | _, _ => nan

def neg (x : Binary64) : Binary64 :=
  ofFields (!x.negative) (x.bits.toNat % Nat.pow 2 63)

def isZero (x : Binary64) : Bool := x.bits.toNat % Nat.pow 2 63 = 0

/-- The integer part of a finite number, toward zero. -/
def truncate? (x : Binary64) : Option Int :=
  x.dyadic?.map fun (n, d) => Int.tdiv n d

def integer? (x : Binary64) : Option Int :=
  match x.dyadic? with
  | some (n, d) => if n % d = 0 then some (Int.tdiv n d) else none
  | none => none

end Binary64

end CodeAtlas
