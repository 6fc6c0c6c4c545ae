import CodeAtlas.Data.Display
import CodeAtlas.Number.Decimal
import CodeAtlas.Text.Base64
import CodeAtlas.Text.Casing
import CodeAtlas.Yaml.Tag
import CodeAtlas.Yaml.Cursor
import CodeAtlas.Files.Path

/-! # The values of scalars

What the text of a scalar denotes, by its tag. A text without a tag has one that fits; a text whose
tag is written out need not fit it.
-/

namespace CodeAtlas.Yaml

/-- The fault of a text that does not denote a value of its kind. -/
def unfit (why : String) : Fault := .unusable (.unusable why)

/-- Takes the sign off a text, which must not be empty. -/
def signed (text : String) : Except Fault (Bool × List Char) :=
  match text.toList with
  | [] => .error (.unusable (.beyondEnd "string index out of range"))
  | '-' :: rest => .ok (true, rest)
  | '+' :: rest => .ok (false, rest)
  | cs => .ok (false, cs)

def integerOf (base : Nat) (digits : List Char) (n : Option Int) : Except Fault Int :=
  match n with
  | some n => .ok n
  | none =>
    .error <| unfit <|
      s!"invalid literal for int() with base {base}: " ++ Text.quoted (.ofList digits)

def decimalInt (digits : List Char) : Except Fault Int :=
  integerOf 10 digits (Text.readInt? (.ofList digits))

def intInBase (base : Nat) (digits : List Char) : Except Fault Int :=
  integerOf base digits ((Text.readNatIn? base (.ofList digits)).map Int.ofNat)

/-- The number that parts denote, each of them a sixtieth of the one before. -/
def ofSixtieths (parts : List Int) : Int := parts.foldl (fun n d => 60 * n + d) 0

def unsignedInt (cs : List Char) : Except Fault Int :=
  match cs with
  | ['0'] => .ok 0
  | '0' :: 'b' :: rest => intInBase 2 rest
  | '0' :: 'x' :: rest => intInBase 16 rest
  | '0' :: 'o' :: rest | '0' :: 'O' :: rest => intInBase 8 rest
  | '0' :: rest => intInBase 8 ('0' :: rest)
  | [] => .error (.unusable (.beyondEnd "string index out of range"))
  | cs =>
    if cs.contains ':' then return ofSixtieths (← (Path.splitAt ':' cs).mapM decimalInt)
    else decimalInt cs

def withoutUnderscores (text : String) : String := .ofList (text.toList.filter (· != '_'))

def intOf (text : String) : Except Fault Int := do
  let (negative, cs) ← signed (withoutUnderscores text)
  let n ← unsignedInt cs
  return if negative then -n else n

/-- Adds parts from the last one on, each of them worth sixty of the one after it. -/
def addSixtieths (sum : Binary64) (base : Nat) : List Binary64 → Binary64
  | [] => sum
  | x :: rest => addSixtieths (sum.add (x.mul (.ofInt base))) (60 * base) rest

def decimalFloat (cs : List Char) : Except Fault Binary64 :=
  match Binary64.ofText? (.ofList cs) with
  | some x => .ok x
  | none => .error (unfit ("could not convert string to float: " ++ Text.quoted (.ofList cs)))

def unsignedFloat (cs : List Char) : Except Fault Binary64 :=
  if cs = ['.', 'i', 'n', 'f'] then .ok (.infinity false)
  else if cs = ['.', 'n', 'a', 'n'] then .ok .nan
  else if cs.contains ':' then
    return addSixtieths (.zero false) 1 (← (Path.splitAt ':' cs).mapM decimalFloat).reverse
  else decimalFloat cs

def floatOf (text : String) : Except Fault Binary64 := do
  let (negative, cs) ← signed (Text.lower (withoutUnderscores text))
  let x ← unsignedFloat cs
  return if negative then x.neg else x

def isLeap (year : Nat) : Bool := year % 4 = 0 && (year % 100 ≠ 0 || year % 400 = 0)

def daysIn (year month : Nat) : Nat :=
  if month = 2 then if isLeap year then 29 else 28
  else if [4, 6, 9, 11].contains month then 30
  else 31

/-- What keeps numbers from being a day of the calendar. -/
def dateFault? (year month day : Nat) : Option String :=
  if year = 0 then some "year 0 is out of range"
  else if month = 0 || 12 < month then some "month must be in 1..12"
  else if day = 0 || daysIn year month < day then some "day is out of range for month"
  else none

/-- What keeps numbers from being a time of the day. -/
def timeFault? (hour minute second : Nat) : Option String :=
  if 24 ≤ hour then some "hour must be in 0..23"
  else if 60 ≤ minute then some "minute must be in 0..59"
  else if 60 ≤ second then some "second must be in 0..59"
  else none

/-- What keeps a number of seconds from being an offset: it is a day or more. -/
def offsetFault? (seconds : Int) : Option String :=
  if seconds.natAbs < 86400 then none
  else some ("offset must be a timedelta strictly between -timedelta(hours=24) and " ++
    s!"timedelta(hours=24), not {Timestamp.shownSpan seconds}.")

def numberOf (digits : List Char) : Nat :=
  Text.ofDigits 10 (digits.map fun d => d.toNat - '0'.toNat)

/-- The millionths of a second that the digits of a fraction denote. -/
def microseconds (digits : List Char) : Nat :=
  let shown := digits.take 6
  numberOf (shown ++ List.replicate (6 - shown.length) '0')

def offsetOf : Option (Bool × List Char × List Char) → Int
  | none => 0
  | some (negative, hours, minutes) =>
    let seconds : Int := 3600 * numberOf hours + 60 * numberOf minutes
    if negative then -seconds else seconds

def timestampOf (text : String) : Except Fault Scalar := do
  let some t := Tag.timeText? text.toList
    | throw (.unusable (.unsupported "'NoneType' object has no attribute 'groupdict'"))
  let (year, month, day) := (numberOf t.year, numberOf t.month, numberOf t.day)
  match t.time with
  | none => refuse (dateFault? year month day) (.date year month day)
  | some (hour, minute, second, fraction) =>
    let (hour, minute, second) := (numberOf hour, numberOf minute, numberOf second)
    let offset := t.zone.map offsetOf
    refuse (offset.bind offsetFault? <|> dateFault? year month day <|>
      timeFault? hour minute second)
      (.timestamp ⟨year, month, day, hour, minute, second, microseconds fraction, offset⟩)
where
  /-- The point in time, if nothing is wrong with it. -/
  refuse (fault : Option String) (s : Scalar) : Except Fault Scalar :=
    match fault with
    | some why => .error (unfit why)
    | none => .ok s

def boolOf (text : String) : Except Fault Bool :=
  let word := Text.lower text
  match Tag.boolWords.find? (·.1 = word) with
  | some (_, b) => .ok b
  | none => .error (.unusable (.missingEntry word))

def binaryOf (text : String) : Except Fault (List UInt8) :=
  if text.toList.all fun c => c.toNat < 0x80 then
    match Text.Base64.decode? text.toList with
    | some bytes => .ok bytes
    | none => .error (.malformed "failed to decode octets")
  else .error (.malformed "octets that are not written in ASCII")

def scalarOf? (tag : Tag) (text : String) : Option (Except Fault Scalar) :=
  match tag with
  | .null => some (.ok .null)
  | .bool => some ((boolOf text).map .bool)
  | .int => some ((intOf text).map .int)
  | .float => some ((floatOf text).map .float)
  | .text => some (.ok (.text text))
  | .timestamp => some (timestampOf text)
  | .binary => some ((binaryOf text).map .octets)
  | _ => none

end CodeAtlas.Yaml
