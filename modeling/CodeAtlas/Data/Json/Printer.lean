import CodeAtlas.Data.Display

/-! # Printing JSON

The JSON text of a value, in two layouts: on one line, or with each entry on a line of its own and
the keys sorted.
-/

namespace CodeAtlas.Json

structure Layout where
  asciiOnly : Bool
  sortKeys : Bool
  /-- Every item and entry starts a line, indented by two spaces for each level. -/
  lines : Bool

def Layout.line : Layout := ⟨false, false, false⟩

def Layout.report : Layout := ⟨true, true, true⟩

/-- Four hexadecimal digits after a `\u`. -/
def hexEscape (u : Nat) : List Char := '\\' :: 'u' :: Text.hexDigits 4 u

def escape (asciiOnly : Bool) (c : Char) : List Char :=
  let n := c.toNat
  if c == '"' || c == '\\' then ['\\', c]
  else if c == '\n' then ['\\', 'n']
  else if c == '\r' then ['\\', 'r']
  else if c == '\t' then ['\\', 't']
  else if n = 8 then ['\\', 'b']
  else if n = 12 then ['\\', 'f']
  else if n < 0x20 then hexEscape n
  else if asciiOnly && 0x7f ≤ n then
    if n < 0x10000 then hexEscape n
    else hexEscape (0xd800 + (n - 0x10000) / 0x400) ++ hexEscape (0xdc00 + (n - 0x10000) % 0x400)
  else [c]

def string (asciiOnly : Bool) (s : String) : String :=
  .ofList ('"' :: s.toList.flatMap (escape asciiOnly) ++ ['"'])

def bare : Scalar → String
  | .null => "null"
  | .bool b => if b then "true" else "false"
  | .float x => Binary64.FloatFormat.data.render x
  | s => s.plain

def keyText : Scalar → String
  | .text s => s
  | s => bare s

def scalar (asciiOnly : Bool) : Scalar → String
  | .text s => string asciiOnly s
  | s => bare s

def Layout.break (l : Layout) (depth : Nat) : String :=
  if l.lines then .ofList ('\n' :: List.replicate (2 * depth) ' ') else ""

def Layout.comma (l : Layout) (depth : Nat) : String :=
  if l.lines then "," ++ l.break depth else ", "

def Layout.enclose (l : Layout) (depth : Nat) (opening closing : String) (parts : List String) :
    String :=
  if parts.isEmpty then opening ++ closing
  else opening ++ l.break (depth + 1) ++ (l.comma (depth + 1)).intercalate parts ++
    l.break depth ++ closing

def Layout.arrange {α : Type} (l : Layout) (entries : List (String × α)) : List (String × α) :=
  if l.sortKeys then entries.mergeSort fun a b => a.1 ≤ b.1 else entries

mutual

def render (l : Layout) (depth : Nat) : Value → String
  | .scalar s => scalar l.asciiOnly s
  | .list items => l.enclose depth "[" "]" (renderItems l (depth + 1) items)
  | .map entries => l.enclose depth "\x7b" "\x7d"
      ((l.arrange (renderEntries l (depth + 1) entries)).map fun (k, v) =>
        string l.asciiOnly k ++ ": " ++ v)
  | .set items => l.enclose depth "[" "]" (items.map (scalar l.asciiOnly))
  | .pair a b => l.enclose depth "[" "]" [render l (depth + 1) a, render l (depth + 1) b]

def renderItems (l : Layout) (depth : Nat) : List Value → List String
  | [] => []
  | v :: vs => render l depth v :: renderItems l depth vs

def renderEntries (l : Layout) (depth : Nat) : List (Scalar × Value) → List (String × String)
  | [] => []
  | (k, v) :: es => (keyText k, render l depth v) :: renderEntries l depth es

end

def print (l : Layout) (v : Value) : String := render l 0 v

end CodeAtlas.Json
