import CodeAtlas.Text.Blank

/-! # Tags of scalars

The kind of a scalar that has no tag follows from its text, if it is written plainly.
-/

namespace CodeAtlas.Yaml

inductive Tag where
  | null
  | bool
  | int
  | float
  | text
  | timestamp
  | binary
  /-- The key under which other mappings are merged into one. -/
  | merge
  /-- The key of a mapping under which its value as a scalar stands. -/
  | value
  | sequence
  | mapping
  | set
  | pairs
  | orderedPairs
  /-- A tag that stands for no plain data. -/
  | other (name : String)
  deriving DecidableEq, Repr

namespace Tag

def named : List (String × Tag) := [
  ("null", .null), ("bool", .bool), ("int", .int), ("float", .float), ("str", .text),
  ("timestamp", .timestamp), ("binary", .binary), ("merge", .merge), ("value", .value),
  ("seq", .sequence), ("map", .mapping), ("set", .set), ("pairs", .pairs), ("omap", .orderedPairs)]

def family : String := "tag:yaml.org,2002:"

def ofName (name : String) : Tag :=
  ((named.find? fun (n, _) => family ++ n == name).map (·.2)).getD (.other name)

def boolWords : List (String × Bool) :=
  ["yes", "Yes", "YES", "true", "True", "TRUE", "on", "On", "ON"].map (·, true) ++
    ["no", "No", "NO", "false", "False", "FALSE", "off", "Off", "OFF"].map (·, false)

def isBinary (c : Char) : Bool := c == '0' || c == '1' || c == '_'

def isOctal (c : Char) : Bool := ('0' ≤ c && c ≤ '7') || c == '_'

def isDecimal (c : Char) : Bool := c.isDigit || c == '_'

def isHex (c : Char) : Bool := isDecimal c || ('a' ≤ c && c ≤ 'f') || ('A' ≤ c && c ≤ 'F')

def isRun (p : Char → Bool) (cs : List Char) : Bool := !cs.isEmpty && cs.all p

def unsigned : List Char → List Char
  | '+' :: rest => rest
  | '-' :: rest => rest
  | cs => cs

def isSixtieth : List Char → Bool
  | [c] => c.isDigit
  | [c, d] => '0' ≤ c && c ≤ '5' && d.isDigit
  | _ => false

/-- One or more parts after colons, up to where `stop` holds of what is left. -/
def isSixtieths (stop : List Char → Bool) : (fuel : Nat) → List Char → Bool
  | 0, _ => false
  | fuel + 1, ':' :: rest =>
    let part := rest.takeWhile Char.isDigit
    let left := rest.drop part.length
    isSixtieth part && (stop left || isSixtieths stop fuel left)
  | _, _ => false

def isInt (cs : List Char) : Bool :=
  match unsigned cs with
  | '0' :: 'b' :: rest => isRun isBinary rest
  | '0' :: 'x' :: rest => isRun isHex rest
  | '0' :: rest => rest.all isOctal
  | c :: rest =>
    let left := rest.dropWhile isDecimal
    c.isDigit && (left.isEmpty || isSixtieths List.isEmpty left.length left)
  | [] => false

def isExponent : List Char → Bool
  | [] => true
  | e :: sign :: digits =>
    (e == 'e' || e == 'E') && (sign == '+' || sign == '-') && isRun Char.isDigit digits
  | _ => false

def isFraction : List Char → Bool
  | '.' :: rest => rest.all isDecimal
  | _ => false

def isFloat (cs : List Char) : Bool :=
  let s : String := .ofList (unsigned cs)
  if [".inf", ".Inf", ".INF"].contains s then true
  else if [".nan", ".NaN", ".NAN"].contains (.ofList cs) then true
  else
    match cs with
    | '.' :: c :: rest => c.isDigit && isExponent (rest.dropWhile isDecimal)
    | _ =>
      match unsigned cs with
      | c :: rest =>
        let left := rest.dropWhile isDecimal
        c.isDigit &&
          (match left with
            | '.' :: more => isExponent (more.dropWhile isDecimal)
            | left => isSixtieths isFraction left.length left)
      | [] => false

/-- Takes a number of digits off a text, at least `low` and at most `high` of them. -/
def takeDigits (low high : Nat) (cs : List Char) : Option (List Char × List Char) :=
  let digits := (cs.take high).takeWhile Char.isDigit
  if low ≤ digits.length then some (digits, cs.drop digits.length) else none

/-- The parts of a point in time, as they are written. -/
structure TimeText where
  year : List Char
  month : List Char
  day : List Char
  /-- Hour, minute, second and fraction. -/
  time : Option (List Char × List Char × List Char × List Char)
  /-- Whether an offset is given, its sign, its hours and its minutes. -/
  zone : Option (Option (Bool × List Char × List Char))
  deriving Repr

def takeChar (c : Char) : List Char → Option (List Char)
  | x :: rest => if x == c then some rest else none
  | [] => none

/-- The rest of a text after spaces and tabs. -/
def skipGap (cs : List Char) : List Char := cs.dropWhile fun c => c == ' ' || c == '\t'

/-- Reads an offset from universal time, or nothing. -/
def zone? (cs : List Char) : Option (Option (Option (Bool × List Char × List Char))) :=
  if cs.isEmpty then some none
  else
    match skipGap cs with
    | ['Z'] => some (some none)
    | sign :: rest => do
      if sign != '+' && sign != '-' then none
      let (hours, rest) ← takeDigits 1 2 rest
      let minutes ←
        match rest with
        | [] => some []
        | ':' :: rest => do
          let (minutes, rest) ← takeDigits 2 2 rest
          if rest.isEmpty then some minutes else none
        | _ => none
      return some (some (sign == '-', hours, minutes))
    | [] => none

def time? (cs : List Char) :
    Option ((List Char × List Char × List Char × List Char) × List Char) := do
  let rest ←
    match cs with
    | 'T' :: rest => some rest
    | 't' :: rest => some rest
    | c :: rest => if c == ' ' || c == '\t' then some (skipGap rest) else none
    | [] => none
  let (hour, rest) ← takeDigits 1 2 rest
  let (minute, rest) ← takeDigits 2 2 (← takeChar ':' rest)
  let (second, rest) ← takeDigits 2 2 (← takeChar ':' rest)
  match rest with
  | '.' :: rest =>
    let fraction := rest.takeWhile Char.isDigit
    return ((hour, minute, second, fraction), rest.drop fraction.length)
  | rest => return ((hour, minute, second, []), rest)

def timeText? (cs : List Char) : Option TimeText := do
  let (year, rest) ← takeDigits 4 4 cs
  let (month, rest) ← takeDigits 1 2 (← takeChar '-' rest)
  let (day, rest) ← takeDigits 1 2 (← takeChar '-' rest)
  if rest.isEmpty then return ⟨year, month, day, none, none⟩
  let (time, rest) ← time? rest
  let zone ← zone? rest
  return ⟨year, month, day, some time, zone⟩

/-- The text of a point in time. A date alone has two digits for month and day. -/
def isTimestamp (cs : List Char) : Bool :=
  match timeText? cs with
  | some t => t.time.isSome || (t.month.length = 2 && t.day.length = 2)
  | none => false

/-- The kind of a scalar that is written plainly and has no tag. -/
def ofPlain (s : String) : Tag :=
  let cs := s.toList
  if boolWords.any (·.1 = s) then .bool
  else if isFloat cs then .float
  else if isInt cs then .int
  else if s = "<<" then .merge
  else if ["", "~", "null", "Null", "NULL"].contains s then .null
  else if isTimestamp cs then .timestamp
  else if s = "=" then .value
  else .text

end Tag

end CodeAtlas.Yaml
