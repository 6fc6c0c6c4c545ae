import CodeAtlas.Number.Binary64

/-! # The shortest decimal of a number

A finite number is written with the fewest significant digits that read back as the number; of
several decimals of that length the nearest one is taken. `FloatFormat` then says how digits and
exponent become text.
-/

namespace CodeAtlas.Binary64

/-- The number `digits * 10 ^ exponent`, where `digits` has no leading zero. -/
structure Decimal where
  digits : Nat
  exponent : Int
  deriving DecidableEq, Repr

/-- The exponent of the leading decimal digit of `num / den`: the greatest `k` with
`10 ^ k ≤ num / den`. -/
def leadingExponent (num den : Nat) : Int :=
  let digitsOfQuotient (a b : Nat) : Nat := (Nat.toDigits 10 (a / b)).length
  if den ≤ num then digitsOfQuotient num den - 1
  else
    let k := digitsOfQuotient den num
    -- den / num lies in [10 ^ (k - 1), 10 ^ k), so num / den is at least 10 ^ -k
    if num * Nat.pow 10 (k - 1) = den then -((k : Int) - 1) else -(k : Int)

/-- `num / den` in units of `10 ^ unit`, as quotient and remainder of a fraction. -/
def inUnits (num den : Nat) (unit : Int) : Nat × Nat :=
  if 0 ≤ unit then (num, den * Nat.pow 10 unit.toNat) else (num * Nat.pow 10 (-unit).toNat, den)

/-- The decimals of `count` digits next to `num / den` that read back as `x`, the nearer one if
both do. -/
def nearestReadingBack? (x : Binary64) (num den count : Nat) (lead : Int) : Option Decimal :=
  let unit := lead - count + 1
  let (a, b) := inUnits num den unit
  let low := a / b
  let readsBack (d : Nat) : Bool :=
    (ofDecimal false d unit).bits.toNat == x.bits.toNat % Nat.pow 2 63
  let nearerLow : Bool := 2 * (a % b) < b || (2 * (a % b) = b && low % 2 = 0)
  match readsBack low, readsBack (low + 1) with
  | true, true => some ⟨if nearerLow then low else low + 1, unit⟩
  | true, false => some ⟨low, unit⟩
  | false, true => some ⟨low + 1, unit⟩
  | false, false => none

/-- The first number of digits that suffices, from `count` on. -/
def shortestFrom (x : Binary64) (num den : Nat) (lead : Int) : (fuel count : Nat) → Decimal
  | 0, count => ⟨(inUnits num den (lead - count + 1)).1, lead - count + 1⟩
  | fuel + 1, count =>
    match nearestReadingBack? x num den count lead with
    | some d => d
    | none => shortestFrom x num den lead fuel (count + 1)

/-- The shortest decimal of the magnitude of a finite number other than zero. -/
def shortest (x : Binary64) : Decimal :=
  match x.dyadic? with
  | some (n, d) =>
    if n = 0 then ⟨0, 0⟩
    else shortestFrom x n.natAbs d (leadingExponent n.natAbs d) 17 1
  | none => ⟨0, 0⟩

def stripZeros : List Char → List Char := fun cs => (cs.reverse.dropWhile (· == '0')).reverse

structure FloatFormat where
  /-- Positional notation is used up to this many digits before the point. -/
  wholeDigits : Int
  /-- Positional notation is used down to this many zeros after the point. -/
  leadingZeros : Int
  /-- The texts of infinity and of no number. -/
  infinity : String
  nan : String

def FloatFormat.plain : FloatFormat := ⟨16, 3, "inf", "nan"⟩

def FloatFormat.data : FloatFormat :=
  { FloatFormat.plain with infinity := "Infinity", nan := "NaN" }

/-- A number without its sign: its significant digits, and the position of the point after the
first of them. -/
def FloatFormat.unsigned (f : FloatFormat) (digits : List Char) (point : Int) : List Char :=
  let n : Int := digits.length
  if f.wholeDigits < point || point < -f.leadingZeros then
    let fraction := if digits.length ≤ 1 then [] else '.' :: digits.drop 1
    let e := point - 1
    let shown := Nat.toDigits 10 e.natAbs
    digits.take 1 ++ fraction ++ 'e' :: (if e < 0 then '-' else '+') ::
      (if shown.length < 2 then '0' :: shown else shown)
  else if point ≤ 0 then '0' :: '.' :: (List.replicate (-point).toNat '0' ++ digits)
  else if n ≤ point then digits ++ List.replicate (point - n).toNat '0' ++ ['.', '0']
  else digits.take point.toNat ++ '.' :: digits.drop point.toNat

def FloatFormat.render (f : FloatFormat) (x : Binary64) : String :=
  let sign := if x.negative then "-" else ""
  match x.magnitude with
  | .infinite => sign ++ f.infinity
  | .notANumber => f.nan
  | .finite m _ =>
    if m = 0 then sign ++ "0.0"
    else
      let d := x.shortest
      let shown := Nat.toDigits 10 d.digits
      sign ++ .ofList (f.unsigned (stripZeros shown) (d.exponent + shown.length))

end CodeAtlas.Binary64
