import CodeAtlas.Data.Json.Reader
import CodeAtlas.Index.Basic
import CodeAtlas.Text.Blank
import CodeAtlas.Text.Lines

/-! # Loading an index

An index is loaded from a text with the exchange form of one file result on each line. Blank lines
are skipped.
-/

namespace CodeAtlas.Index

def readLine (path : String) (number : Nat) (line : String) : Result (Option Value) :=
  let line := Text.trim line
  if line = "" then .ok none
  else
    match Json.read (some Text.digitLimit) line with
    | .ok v => .ok (some v)
    | .error .longNumeral => .error (.unusable Json.Fault.longNumeral.message)
    | .error fault => .error (.notJson path number fault.message)

def readLines (path text : String) : Result (List Value) :=
  return (← (Text.lines text).zipIdx.mapM fun (line, i) => readLine path (i + 1) line).reduceOption

/-- The text up to its last line end. A carriage return at the end might yet be followed by a line
feed, so it ends no line. -/
def finishedLines (cs : List Char) : List Char :=
  let cs := if cs.getLast? = some '\r' then cs.dropLast else cs
  Text.dropWhileEnd (· != '\n') (Text.unifyBreaks cs)

/-- The values on the lines of a file. Octets that break off inside a character are found out only
after the lines before. -/
def readContent (path : String) (content : List UInt8) : Result (List Value) :=
  match Text.Utf8.decode? content with
  | .ok text => readLines path text
  | .error m => do
    if m.why = .unexpectedEnd then
      let before := Text.Utf8.decodeLossyChars (content.take m.position)
      discard (readLines path (.ofList (finishedLines before)))
    throw (.notText m)

def load (path : String) (content : ByteArray) : Result Index := do
  ofResults (← (← readContent path content.toList).mapM FileResult.ofValue)

end CodeAtlas.Index
