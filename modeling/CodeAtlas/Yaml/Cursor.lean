import CodeAtlas.Failure

/-! # Places in a YAML text

A cursor stands before the rest of a text and knows its line and column, from zero. The end of the
text reads as the NUL character, which no YAML text holds.
-/

namespace CodeAtlas.Yaml

/-- Why the text of a scalar does not denote a value of its kind. -/
inductive Misfit where
  | missingEntry (key : String)
  | unsupported (detail : String)
  | unusable (detail : String)
  | beyondRange (detail : String)
  | beyondEnd (detail : String)
  deriving DecidableEq, Repr

def Misfit.failure : Misfit → Failure
  | .missingEntry key => .missingEntry key
  | .unsupported detail => .unsupported detail
  | .unusable detail => .unusable detail
  | .beyondRange detail => .beyondRange detail
  | .beyondEnd detail => .beyondEnd detail

inductive Fault where
  /-- The text is not YAML, or it is YAML that stands for no plain data. -/
  | malformed (why : String)
  /-- The text of a scalar does not denote a value of its kind. -/
  | unusable (why : Misfit)
  deriving DecidableEq, Repr

/-- A character ends a line. Lines that end in a carriage return are not expected. -/
def isBreak (c : Char) : Bool := c == '\n' || c == '\x85' || c == '\u2028' || c == '\u2029'

def isEnd (c : Char) : Bool := c == '\x00'

def isLineEnd (c : Char) : Bool := isEnd c || isBreak c

/-- A space, or the end of a line or of the text. -/
def isGap (c : Char) : Bool := c == ' ' || isLineEnd c

def isSpaceOrEnd (c : Char) : Bool := c == '\t' || isGap c

/-- A character of a name: a letter or digit of ASCII, a hyphen or an underscore. -/
def isNameChar (c : Char) : Bool := c.isAlphanum || c == '-' || c == '_'

/-- A character that a text may hold. -/
def isAllowed (c : Char) : Bool :=
  let n := c.toNat
  n = 9 || n = 0xa || n = 0xd || (0x20 ≤ n && n ≤ 0x7e) || n = 0x85 || (0xa0 ≤ n && n ≤ 0xfffd) ||
    0x10000 ≤ n

structure Cursor where
  rest : List Char
  index : Nat
  line : Nat
  column : Nat
  deriving DecidableEq, Repr, Inhabited

namespace Cursor

def ofChars (cs : List Char) : Cursor := ⟨cs, 0, 0, 0⟩

def peek (c : Cursor) (n : Nat) : Char := c.rest.getD n '\x00'

def next (c : Cursor) : Char := c.peek 0

def advance (c : Cursor) : Cursor :=
  match c.rest with
  | [] => c
  | x :: rest =>
    if isBreak x then ⟨rest, c.index + 1, c.line + 1, 0⟩
    else if x == '\ufeff' then ⟨rest, c.index + 1, c.line, c.column⟩
    else ⟨rest, c.index + 1, c.line, c.column + 1⟩

def skip : (n : Nat) → Cursor → Cursor
  | 0, c => c
  | n + 1, c => skip n c.advance

def span (p : Char → Bool) (c : Cursor) : List Char × Cursor :=
  let cs := c.rest.takeWhile p
  (cs, c.skip cs.length)

def dropWhile (p : Char → Bool) (c : Cursor) : Cursor := (c.span p).2

/-- Moves over a line end, if there is one here: it reads as a line feed or as the separator that
it is. -/
def lineBreak? (c : Cursor) : Option (Char × Cursor) :=
  if c.next == '\u2028' || c.next == '\u2029' then some (c.next, c.advance)
  else if isBreak c.next then some ('\n', c.advance)
  else none

/-- The place after the rest of a line, which has to be blank or a comment. -/
def skipRemark (c : Cursor) : Except Fault Cursor :=
  let c := c.dropWhile (· == ' ')
  let c := if c.next == '#' then c.dropWhile (!isLineEnd ·) else c
  if isLineEnd c.next then .ok ((c.lineBreak?.map (·.2)).getD c)
  else .error (.malformed "expected a comment or a line break")

/-- Three equal characters `x` on their own at the start of a line. -/
def isMarker (x : Char) (c : Cursor) : Bool :=
  c.column = 0 && c.next == x && c.peek 1 == x && c.peek 2 == x && isSpaceOrEnd (c.peek 3)

/-- The start or the end of a document, where a line starts. -/
def atDocumentMarker (c : Cursor) : Bool := c.isMarker '-' || c.isMarker '.'

end Cursor

end CodeAtlas.Yaml
