import CodeAtlas.Data.Value
import CodeAtlas.Text.Digits

/-! # Reading JSON

A reader of JSON text. Of the faults in a text the first one met is reported. `Infinity`,
`-Infinity` and `NaN` are numbers; of two entries with one key the later value counts, at the
place of the earlier.
-/

namespace CodeAtlas.Json

inductive Fault where
  | expectingValue
  | expectingName
  | expectingColon
  | expectingComma
  | unterminatedString
  | controlCharacter
  | invalidEscape
  | invalidHexEscape
  | extraData
  | byteOrderMark
  /-- A numeral has more digits than are read. -/
  | longNumeral
  deriving DecidableEq, Repr

def Fault.message : Fault → String
  | .expectingValue => "Expecting value"
  | .expectingName => "Expecting property name enclosed in double quotes"
  | .expectingColon => "Expecting ':' delimiter"
  | .expectingComma => "Expecting ',' delimiter"
  | .unterminatedString => "Unterminated string starting at"
  | .controlCharacter => "Invalid control character at"
  | .invalidEscape => "Invalid \\escape"
  | .invalidHexEscape => "Invalid \\uXXXX escape"
  | .extraData => "Extra data"
  | .byteOrderMark => "Unexpected UTF-8 BOM (decode using utf-8-sig)"
  | .longNumeral => "Exceeds the limit for integer string conversion"

def isSpace (c : Char) : Bool := c == ' ' || c == '\t' || c == '\n' || c == '\r'

def skipSpace (cs : List Char) : List Char := cs.dropWhile isSpace

def hexValue? (c : Char) : Option Nat :=
  if '0' ≤ c && c ≤ '9' then some (c.toNat - '0'.toNat)
  else if 'a' ≤ c && c ≤ 'f' then some (c.toNat - 'a'.toNat + 10)
  else if 'A' ≤ c && c ≤ 'F' then some (c.toNat - 'A'.toNat + 10)
  else none

def codeUnit? (a b c d : Char) : Option Nat := do
  return ((← hexValue? a) * 16 + (← hexValue? b)) * 256 + ((← hexValue? c) * 16 + (← hexValue? d))

def isHigh (u : Nat) : Bool := 0xd800 ≤ u && u ≤ 0xdbff

def isLow (u : Nat) : Bool := 0xdc00 ≤ u && u ≤ 0xdfff

/-- The character of a code unit; a surrogate on its own is the replacement character. -/
def unitChar (u : Nat) : Char :=
  if 0xd800 ≤ u && u ≤ 0xdfff then '\ufffd' else .ofNat u

def pairChar (high low : Nat) : Char :=
  .ofNat (0x10000 + (high - 0xd800) * 0x400 + (low - 0xdc00))

def simpleEscape? : Char → Option Char
  | '"' => some '"'
  | '\\' => some '\\'
  | '/' => some '/'
  | 'b' => some '\x08'
  | 'f' => some '\x0c'
  | 'n' => some '\n'
  | 'r' => some '\r'
  | 't' => some '\t'
  | _ => none

def readString : List Char → Except Fault (List Char × List Char)
  | [] => .error .unterminatedString
  | '"' :: rest => .ok ([], rest)
  | '\\' :: 'u' :: a :: b :: c :: d :: '\\' :: 'u' :: e :: f :: g :: h :: next :: rest =>
    match codeUnit? a b c d with
    | none => .error .invalidHexEscape
    | some u =>
      if isHigh u then
        match codeUnit? e f g h with
        | none => .error .invalidHexEscape
        | some v =>
          if isLow v then do
            let (s, r) ← readString (next :: rest)
            return (pairChar u v :: s, r)
          else do
            let (s, r) ← readString ('\\' :: 'u' :: e :: f :: g :: h :: next :: rest)
            return (unitChar u :: s, r)
      else do
        let (s, r) ← readString ('\\' :: 'u' :: e :: f :: g :: h :: next :: rest)
        return (unitChar u :: s, r)
  | '\\' :: 'u' :: a :: b :: c :: d :: next :: rest =>
    match codeUnit? a b c d with
    | none => .error .invalidHexEscape
    | some u => do
      let (s, r) ← readString (next :: rest)
      return (unitChar u :: s, r)
  | '\\' :: 'u' :: _ => .error .invalidHexEscape
  | '\\' :: c :: rest =>
    match simpleEscape? c with
    | none => .error .invalidEscape
    | some e => do
      let (s, r) ← readString rest
      return (e :: s, r)
  | ['\\'] => .error .unterminatedString
  | c :: rest =>
    if c.toNat < 0x20 then .error .controlCharacter
    else do
      let (s, r) ← readString rest
      return (c :: s, r)

def naturalOf (ds : List Char) : Nat := ds.foldl (fun n d => 10 * n + (d.toNat - '0'.toNat)) 0

/-- The exponent part of a numeral, if a complete one comes next. -/
def readExponent : List Char → Option (Int × List Char)
  | e :: rest =>
    if e == 'e' || e == 'E' then
      let (negative, body) := match rest with
        | '-' :: body => (true, body)
        | '+' :: body => (false, body)
        | body => (false, body)
      let ds := body.takeWhile Char.isDigit
      if ds.isEmpty then none
      else
        let n : Int := naturalOf ds
        some (if negative then -n else n, body.dropWhile Char.isDigit)
    else none
  | [] => none

/-- The fraction part of a numeral, if a complete one comes next. -/
def readFraction : List Char → Option (List Char × List Char)
  | '.' :: rest =>
    let ds := rest.takeWhile Char.isDigit
    if ds.isEmpty then none else some (ds, rest.dropWhile Char.isDigit)
  | _ => none

def readNumber (limit : Option Nat) (negative : Bool) (cs : List Char) :
    Except Fault (Scalar × List Char) :=
  let whole := match cs with
    | '0' :: _ => ['0']
    | _ => cs.takeWhile Char.isDigit
  if whole.isEmpty then .error .expectingValue
  else
    let rest := cs.drop whole.length
    let fraction := readFraction rest
    let afterFraction := (fraction.map (·.2)).getD rest
    let exponent := readExponent afterFraction
    if fraction.isNone && exponent.isNone then
      if limit.any (· < whole.length) then .error .longNumeral
      else
        let n : Int := naturalOf whole
        .ok (.int (if negative then -n else n), rest)
    else
      let places := (fraction.map (·.1)).getD []
      let (shift, afterExponent) := exponent.getD (0, afterFraction)
      .ok (.float (Binary64.ofDecimal negative (naturalOf (whole ++ places))
        (shift - places.length)), afterExponent)

def keywords : List (String × Scalar) :=
  [("null", .null), ("true", .bool true), ("false", .bool false), ("NaN", .float .nan),
   ("Infinity", .float (.infinity false)), ("-Infinity", .float (.infinity true))]

def readKeyword? (cs : List Char) : Option (Scalar × List Char) :=
  keywords.findSome? fun (word, v) =>
    if word.toList.isPrefixOf cs then some (v, cs.drop word.length) else none

/-- Reads a value that is neither a string nor composite. -/
def readScalar (limit : Option Nat) (cs : List Char) : Except Fault (Scalar × List Char) :=
  match readKeyword? cs with
  | some r => .ok r
  | none =>
    match cs with
    | '-' :: rest => readNumber limit true rest
    | _ => readNumber limit false cs

mutual

/-- Reads a value; `fuel` bounds the depth and length of what is read. -/
def readValue (limit : Option Nat) : (fuel : Nat) → List Char → Except Fault (Value × List Char)
  | 0, _ => .error .expectingValue
  | fuel + 1, cs =>
    match cs with
    | '"' :: rest => do
      let (s, r) ← readString rest
      return (.text (.ofList s), r)
    | '[' :: rest =>
      match skipSpace rest with
      | ']' :: r => .ok (.list [], r)
      | r => do
        let (items, r) ← readItems limit fuel r
        return (.list items, r)
    | '\x7b' :: rest =>
      match skipSpace rest with
      | '\x7d' :: r => .ok (.map [], r)
      | r => readEntries limit fuel [] r
    | _ => do
      let (s, r) ← readScalar limit cs
      return (.scalar s, r)

def readItems (limit : Option Nat) :
    (fuel : Nat) → List Char → Except Fault (List Value × List Char)
  | 0, _ => .error .expectingValue
  | fuel + 1, cs => do
    let (v, r) ← readValue limit fuel cs
    match skipSpace r with
    | ']' :: r => return ([v], r)
    | ',' :: r =>
      let (vs, r) ← readItems limit fuel (skipSpace r)
      return (v :: vs, r)
    | _ => .error .expectingComma

/-- Reads the entries of a mapping up to its closing brace, after the entries `before`. -/
def readEntries (limit : Option Nat) : (fuel : Nat) → (before : List (Scalar × Value)) →
    List Char → Except Fault (Value × List Char)
  | 0, _, _ => .error .expectingValue
  | fuel + 1, before, cs =>
    match cs with
    | '"' :: rest => do
      let (k, r) ← readString rest
      match skipSpace r with
      | ':' :: r =>
        let (v, r) ← readValue limit fuel (skipSpace r)
        let entries := Value.insert before (.text (.ofList k)) v
        match skipSpace r with
        | '\x7d' :: r => return (.map entries, r)
        | ',' :: r => readEntries limit fuel entries (skipSpace r)
        | _ => .error .expectingComma
      | _ => .error .expectingColon
    | _ => .error .expectingName

end

/-- Reads a whole text as one value. Integers of more than `limit` digits are refused. -/
def read (limit : Option Nat) (s : String) : Except Fault Value :=
  match s.toList with
  | '\ufeff' :: _ => .error .byteOrderMark
  | cs => do
    let (v, r) ← readValue limit (2 * cs.length + 2) (skipSpace cs)
    if (skipSpace r).isEmpty then return v else .error .extraData

end CodeAtlas.Json
