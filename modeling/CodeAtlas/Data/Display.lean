import CodeAtlas.Data.Value
import CodeAtlas.Number.Shortest
import CodeAtlas.Text.Quoted

/-! # Values as message text

The text that a message shows for a value. A text is shown as it is at the top and quoted inside
another value; lists, mappings, sets and pairs show their parts in brackets.
-/

namespace CodeAtlas

/-- The decimal digits of `n`, at least `width` of them. -/
def padded (width n : Nat) : String :=
  let digits := Nat.toDigits 10 n
  .ofList (List.replicate (width - digits.length) '0' ++ digits)

namespace Timestamp

/-- The offset from universal time, in hours, minutes and, if needed, seconds. -/
def showOffset (seconds : Int) : String :=
  let n := seconds.natAbs
  let tail := if n % 60 = 0 then "" else ":" ++ padded 2 (n % 60)
  (if seconds < 0 then "-" else "+") ++ padded 2 (n / 3600) ++ ":" ++ padded 2 (n / 60 % 60) ++ tail

/-- Date and time, separated by a space. -/
def plain (t : Timestamp) : String :=
  padded 4 t.year ++ "-" ++ padded 2 t.month ++ "-" ++ padded 2 t.day ++ " " ++
    padded 2 t.hour ++ ":" ++ padded 2 t.minute ++ ":" ++ padded 2 t.second ++
    (if t.microsecond = 0 then "" else "." ++ padded 6 t.microsecond) ++
    (t.offset.map showOffset).getD ""

/-- A span of time: a whole number of days, and seconds within the day. -/
def shownSpan (seconds : Int) : String :=
  let days := seconds.fdiv 86400
  let rest := seconds.fmod 86400
  let parts := (if days = 0 then [] else [s!"days={days}"]) ++
    (if rest = 0 then [] else [s!"seconds={rest}"])
  "datetime.timedelta(" ++ ", ".intercalate parts ++ ")"

def shownOffset (seconds : Int) : String :=
  if seconds = 0 then "datetime.timezone.utc" else "datetime.timezone(" ++ shownSpan seconds ++ ")"

def shown (t : Timestamp) : String :=
  let time := [t.hour, t.minute] ++
    (if t.second = 0 && t.microsecond = 0 then [] else [t.second]) ++
    (if t.microsecond = 0 then [] else [t.microsecond])
  let fields := ([t.year, t.month, t.day] ++ time).map toString ++
    (t.offset.map fun o => "tzinfo=" ++ shownOffset o).toList
  "datetime.datetime(" ++ ", ".intercalate fields ++ ")"

end Timestamp

/-- An octet string between quotes, with escapes for what is not plain ASCII. -/
def showOctets (bytes : List UInt8) : String :=
  let q : Char := if bytes.contains 39 && !bytes.contains 34 then '"' else '\''
  let octet (b : UInt8) : List Char :=
    let c := Char.ofNat b.toNat
    if c == q || c == '\\' then ['\\', c]
    else if b == 9 then ['\\', 't']
    else if b == 10 then ['\\', 'n']
    else if b == 13 then ['\\', 'r']
    else if 0x20 ≤ b && b < 0x7f then [c]
    else '\\' :: 'x' :: Text.hexDigits 2 b.toNat
  "b" ++ .ofList (q :: bytes.flatMap octet ++ [q])

namespace Scalar

def shown : Scalar → String
  | .null => "None"
  | .bool b => if b then "True" else "False"
  | .int n => toString n
  | .float x => Binary64.FloatFormat.plain.render x
  | .text s => Text.quoted s
  | .octets bytes => showOctets bytes
  | .date y m d => s!"datetime.date({y}, {m}, {d})"
  | .timestamp t => t.shown

def plain : Scalar → String
  | .text s => s
  | .date y m d => padded 4 y ++ "-" ++ padded 2 m ++ "-" ++ padded 2 d
  | .timestamp t => t.plain
  | s => s.shown

end Scalar

namespace Value

mutual

def shown : Value → String
  | .scalar s => s.shown
  | .list items => "[" ++ shownItems items ++ "]"
  | .map entries => "\x7b" ++ shownEntries entries ++ "\x7d"
  | .set items =>
    if items.isEmpty then "set()"
    else "\x7b" ++ ", ".intercalate (items.map Scalar.shown) ++ "\x7d"
  | .pair a b => "(" ++ shown a ++ ", " ++ shown b ++ ")"

def shownItems : List Value → String
  | [] => ""
  | [v] => shown v
  | v :: w :: rest => shown v ++ ", " ++ shownItems (w :: rest)

def shownEntries : List (Scalar × Value) → String
  | [] => ""
  | [(k, v)] => k.shown ++ ": " ++ shown v
  | (k, v) :: e :: rest => k.shown ++ ": " ++ shown v ++ ", " ++ shownEntries (e :: rest)

end

def plain : Value → String
  | .scalar s => s.plain
  | v => v.shown

end Value

end CodeAtlas
